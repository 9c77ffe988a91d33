import FuelGrid.Receivables.Handlers

/-!
# Invoices as open items

What keeps the customer-invoice sub-ledger together (`Books`): the invoices and the allocations of
the payments that were not reversed satisfy the law of open items, and the tables refer to each
other as they should.
-/

namespace FuelGrid.Receivables

open Sql

def invoiceView : ItemView CustomerInvoice Uuid where
  id := (·.id)
  amount := (·.amount)
  outstanding := (·.outstandingAmount)
  paid i := i.status = .paid

def PaymentAllocation.part (a : PaymentAllocation) : Uuid × Money := (a.customerInvoiceId, a.amount)

namespace ReceivablesDb

variable (db : ReceivablesDb)

/-- The payments that were not reversed. -/
def posted : List Uuid :=
  db.payments.filterMap fun p ↦ if p.status = .posted then some p.id else none

def live : List (Uuid × Money) :=
  (db.allocations.filter (·.customerPaymentId ∈ db.posted)).map (·.part)

end ReceivablesDb

/-! ## What the statements return -/

variable {i' i : CustomerInvoice} {p : CustomerPayment} {id payment : Uuid}

section Statements

variable {db : ReceivablesDb} {live : List (Uuid × Money)} {amount : Numeric} {invoice : Uuid}
  {n : ℕ}

/-- A draw of whole cents from an invoice and its allocation. -/
structure Drawn (i i' : CustomerInvoice) (a : Money) : Prop where
  id : i'.id = i.id
  amount : i'.amount = i.amount
  outstanding : i'.outstandingAmount = i.outstandingAmount + -a
  paid_iff : i'.status = .paid ↔ i'.outstandingAmount ≤ 0
  le : a ≤ i.outstandingAmount

theorem applyPayment_eq_some {customer : Uuid} {a : Money} (hwh : amount.Whole 2)
    (ha : amount.store 14 2 = some a) (h : applyPayment db customer id amount = .ok (some i')) :
    ∃ i ∈ db.invoices, i.id = id ∧ Drawn i i' a := by
  unfold applyPayment at h
  split at h
  · cases h
  next i hfi =>
    have hi : i.Payable id customer amount := by simpa using find?_some hfi
    split at h
    · cases h
    next left settled hdr =>
      split at h
      · obtain rfl := some.inj (ok.inj h)
        obtain ⟨hleft, hset⟩ := Numeric.drawn_of_whole hwh ha hdr
        refine ⟨i, mem_of_find?_eq_some hfi, hi.1, rfl, rfl, hleft, ?_,
          Numeric.store_le hi.2.2.2 ha⟩
        rw [← hset]
        change (if settled = true then InvoiceStatus.paid else .partiallyPaid) = .paid ↔ _
        rcases settled with _ | _ <;> decide
      · cases h

theorem insertAllocation_eq_ok {a : PaymentAllocation}
    (h : insertAllocation db payment invoice amount = .ok a) :
    a.customerPaymentId = payment ∧ a.customerInvoiceId = invoice ∧
      amount.store 14 2 = some a.amount := by
  unfold insertAllocation at h
  split at h
  · cases h
  next x hx =>
    split at h
    · split at h
      · obtain rfl := ok.inj h
        exact ⟨rfl, rfl, hx⟩
      · cases h
    · cases h

theorem bumpPayment_eq_some {p' : CustomerPayment}
    (h : bumpPayment db payment amount = .ok (some p')) :
    ∃ p ∈ db.payments, p'.id = p.id ∧ p'.status = p.status := by
  unfold bumpPayment at h
  split at h
  · cases h
  next p hfi =>
    split at h
    · split at h
      · obtain rfl := some.inj (ok.inj h)
        exact ⟨p, mem_of_find?_eq_some hfi, rfl, rfl⟩
      · cases h
    · cases h

section Restore

variable {a : PaymentAllocation} (hcons : Conserved invoiceView db.invoices (a.part :: live))

include hcons

theorem least_restore (hi : i ∈ db.invoices) (hid : i.id = a.customerInvoiceId) :
    least (i.outstandingAmount + a.amount) i.amount = i.outstandingAmount + a.amount := by
  have hcons : Conserved invoiceView db.invoices ((invoiceView.id i, a.amount) :: live) := by
    rw [show (invoiceView.id i, a.amount) = a.part from congrArg (·, a.amount) hid]
    exact hcons
  exact if_pos (hcons.restore_le hi)

theorem restoreInvoice_eq_some
    (h : restoreInvoice db a.customerInvoiceId a.amount = .ok (some i')) :
    Conserved invoiceView (db.apply (.setInvoice i')).invoices live := by
  unfold restoreInvoice at h
  split at h
  · cases h
  next i hfi =>
    obtain ⟨hi, hid⟩ := key_of_find? hfi
    have hlea := least_restore hcons hi hid
    have hpart : (invoiceView.id i, a.amount) = a.part := congrArg (·, a.amount) hid
    rw [← hpart] at hcons
    dsimp only at h
    rw [hlea] at h
    split at h
    · cases h
    next left hleft =>
      obtain rfl := store_ofUnits hleft
      split at h
      · have hrow := some.inj (ok.inj h)
        have hpaid : i'.status ≠ .paid := by
          rw [← hrow]
          change (if i.amount ≤ i.outstandingAmount + a.amount then InvoiceStatus.issued
            else .partiallyPaid) ≠ .paid
          split <;> decide
        exact hcons.restore hi (hrow ▸ rfl : i'.id = i.id) (hrow ▸ rfl) (hrow ▸ rfl) hpaid
      · cases h

/-- The item of an allocation that counts is there to be restored. -/
theorem restoreInvoice_ne_none : restoreInvoice db a.customerInvoiceId a.amount ≠ .ok none := by
  intro h
  unfold restoreInvoice at h
  split at h
  next hfi =>
    obtain ⟨i, hi, hid⟩ := mem_map.mp (hcons.known _ mem_cons_self)
    exact find?_key_eq_none.mp hfi i hi hid
  next i hfi =>
    dsimp only at h
    split at h
    · cases h
    · split at h <;> cases h

end Restore

theorem insertInvoice_eq_ok {input : InvoiceInput} (h : insertInvoice db n input = .ok i) :
    i.id = n ∧ i.status = .draft := by
  unfold insertInvoice at h
  split at h
  · cases h
  · split at h
    · obtain rfl := ok.inj h
      exact ⟨rfl, rfl⟩
    · cases h

theorem insertLine_eq_ok {key : String} {l : InvoiceLine}
    (h : insertLine db invoice amount key = .ok l) : l.customerInvoiceId = invoice := by
  unfold insertLine at h
  split at h
  · cases h
  · split at h
    · split at h
      · obtain rfl := ok.inj h
        rfl
      · cases h
    · cases h

theorem finalizeAmount_eq_some (h : finalizeAmount db invoice = .ok (some i')) :
    ∃ i ∈ db.invoices, i.id = invoice ∧ i'.id = i.id ∧ i'.status = i.status ∧
      i'.outstandingAmount = i'.amount ∧
      i'.amount = ((db.linesOf invoice).map (·.amount)).sum := by
  unfold finalizeAmount at h
  split at h
  · cases h
  next i hfi =>
    obtain ⟨hi, hid⟩ := key_of_find? hfi
    split at h
    · cases h
    next total htot =>
      split at h
      · obtain rfl := some.inj (ok.inj h)
        exact ⟨i, hi, hid, rfl, rfl, rfl, store_ofUnits htot⟩
      · cases h

theorem sum_lines_pos {lines : List InvoiceLine} (hne : lines ≠ []) :
    0 < (lines.map (·.amount)).sum := by
  rcases lines with _ | ⟨l, lines⟩
  · exact absurd rfl hne
  · rw [map_cons, sum_cons]
    refine l.amount_pos.trans_le (le_add_of_nonneg_right (List.sum_nonneg fun x hx ↦ ?_))
    obtain ⟨l', -, rfl⟩ := mem_map.mp hx
    exact l'.amount_pos.le

theorem issueInvoice_eq_some (h : issueInvoice db id = some i') :
    ∃ i ∈ db.invoices, i.status = .draft ∧ i' = { i with status := .issued } := by
  obtain ⟨i, hfi, rfl⟩ := map_eq_some_iff.mp h
  have hi : i.id = id ∧ i.status = .draft := by simpa using find?_some hfi
  exact ⟨i, mem_of_find?_eq_some hfi, hi.2, rfl⟩

theorem insertPayment_eq_ok {input : PaymentInput} (h : insertPayment db n input = .ok p) :
    p.id = n ∧ p.status = .posted := by
  unfold insertPayment at h
  split at h
  · obtain rfl := ok.inj h
    exact ⟨rfl, rfl⟩
  · cases h

end Statements

/-! ## The books

Each change that a handler makes to the tables keeps the books; for a draw with its allocation and
for the reversal of a payment it is the whole of the change that does. -/

/-- The sub-ledger with what keeps it: payments have ids, allocations have payments, and ids were
drawn before `n`. -/
structure Books (db : ReceivablesDb) (n : ℕ) : Prop where
  conserved : Conserved invoiceView db.invoices db.live
  payment_ids : (db.payments.map (·.id)).Nodup
  allocation_payment : ∀ a ∈ db.allocations, a.customerPaymentId ∈ db.payments.map (·.id)
  invoices_lt : ∀ i ∈ db.invoices, i.id < n
  payments_lt : ∀ p ∈ db.payments, p.id < n

theorem mem_posted {db : ReceivablesDb} :
    id ∈ db.posted ↔ ∃ p ∈ db.payments, p.status = .posted ∧ p.id = id := by
  simp [ReceivablesDb.posted, mem_filterMap]

/-- A posted payment's allocations and the others make up those that count. -/
theorem live_perm {db : ReceivablesDb} (hid : id ∈ db.posted) :
    db.live.Perm ((db.allocationsOf id).map (·.part) ++ (db.allocations.filter fun a ↦
      a.customerPaymentId ∈ db.posted ∧ a.customerPaymentId ≠ id).map (·.part)) := by
  have hspl := List.filter_append_perm (fun a : PaymentAllocation ↦ a.customerPaymentId = id)
    (db.allocations.filter (·.customerPaymentId ∈ db.posted))
  rw [filter_filter, filter_filter] at hspl
  rw [ReceivablesDb.live, ReceivablesDb.allocationsOf, ← map_append]
  refine (hspl.symm.trans (.of_eq ?_)).map _
  congr 1
  · refine filter_congr fun a _ ↦ ?_
    by_cases ha : a.customerPaymentId = id
    · simp [ha, hid]
    · simp [ha]
  · refine filter_congr fun a _ ↦ ?_
    simp [and_comm]

namespace Books

variable {db : ReceivablesDb} {n m : ℕ} (h : Books db n)

include h

theorem mono (hn : n ≤ m) : Books db m :=
  { h with
    invoices_lt := fun i hi ↦ (h.invoices_lt i hi).trans_le hn
    payments_lt := fun p hp ↦ (h.payments_lt p hp).trans_le hn }

theorem setInvoice (i' : CustomerInvoice) (hi : i ∈ db.invoices) (hid : i'.id = i.id)
    (hamt : i'.amount = i.amount) (hout : i'.outstandingAmount = i.outstandingAmount)
    (hpaid : i'.status = .paid ↔ i.status = .paid) : Books (db.apply (.setInvoice i')) n where
  conserved := h.conserved.update hi hid hamt hout hpaid
  payment_ids := h.payment_ids
  allocation_payment := h.allocation_payment
  invoices_lt x hx := by
    rcases mem_update hx with rfl | ⟨hx, -⟩
    · exact hid ▸ h.invoices_lt i hi
    · exact h.invoices_lt x hx
  payments_lt := h.payments_lt

theorem posted_setPayment (p' : CustomerPayment) (hp : p ∈ db.payments) (hid : p'.id = p.id)
    (hst : p'.status = p.status) : (db.apply (.setPayment p')).posted = db.posted := by
  refine filterMap_map.trans (List.filterMap_congr fun x hx ↦ ?_)
  rw [comp_apply]
  split
  next hk =>
    obtain rfl := inj_on_of_nodup_map h.payment_ids hx hp (hk.trans hid)
    rw [hid, hst]
  · rfl

theorem setPayment (p' : CustomerPayment) (hp : p ∈ db.payments) (hid : p'.id = p.id)
    (hst : p'.status = p.status) : Books (db.apply (.setPayment p')) n := by
  have hpd := h.posted_setPayment p' hp hid hst
  have hlv : (db.apply (.setPayment p')).live = db.live := by
    rw [ReceivablesDb.live, hpd]
    rfl
  have hids : (db.apply (.setPayment p')).payments.map (·.id) = db.payments.map (·.id) :=
    map_key_update db.payments p'
  refine ⟨hlv ▸ h.conserved, hids ▸ h.payment_ids, hids ▸ h.allocation_payment, h.invoices_lt,
    fun x hx ↦ ?_⟩
  rcases mem_update hx with rfl | ⟨hx, -⟩
  · exact hid ▸ h.payments_lt p hp
  · exact h.payments_lt x hx

theorem insertPayment (hid : p.id = n) : Books (db.apply (.insertPayment p)) (n + 1) := by
  have hfr : p.id ∉ db.payments.map (·.id) := fun hmem ↦ by
    obtain ⟨x, hx, hxid⟩ := mem_map.mp hmem
    exact (h.payments_lt x hx).ne (hxid.trans hid)
  have hlv : (db.apply (.insertPayment p)).live = db.live := by
    refine congrArg (List.map _) (filter_congr fun a ha ↦ decide_eq_decide.mpr ?_)
    have hne : a.customerPaymentId ≠ p.id := fun heq ↦ hfr (heq ▸ h.allocation_payment a ha)
    rw [mem_posted, mem_posted]
    constructor
    · rintro ⟨x, hx, hst, hxid⟩
      rcases mem_append.mp hx with hx | hx
      · exact ⟨x, hx, hst, hxid⟩
      · exact absurd (hxid.symm.trans (congrArg _ (mem_singleton.mp hx))) hne
    · rintro ⟨x, hx, hst, hxid⟩
      exact ⟨x, mem_append_left _ hx, hst, hxid⟩
  refine ⟨hlv ▸ h.conserved, ?_, fun a ha ↦ ?_, fun i hi ↦ (h.invoices_lt i hi).trans
    (lt_succ_self n), fun x hx ↦ ?_⟩
  · exact nodup_key_snoc h.payment_ids fun y hy hk ↦ hfr (mem_map.mpr ⟨y, hy, hk⟩)
  · change _ ∈ (db.payments ++ [p]).map _
    rw [map_append]
    exact mem_append_left _ (h.allocation_payment a ha)
  · rcases mem_snoc.mp hx with hx | rfl
    · exact (h.payments_lt x hx).trans (lt_succ_self n)
    · rw [hid]
      exact lt_succ_self n

theorem allocate {a : PaymentAllocation} (hi : i ∈ db.invoices) (hdr : Drawn i i' a.amount)
    (hinv : a.customerInvoiceId = i.id) (hpay : a.customerPaymentId ∈ db.posted) :
    Books ((db.apply (.setInvoice i')).apply (.insertAllocation a)) n := by
  have hlv : ((db.apply (.setInvoice i')).apply (.insertAllocation a)).live
      = db.live ++ [(i.id, a.amount)] := by
    change ((db.allocations ++ [a]).filter _).map _ = _
    rw [filter_append, map_append, List.filter_singleton]
    refine congrArg (db.live ++ ·) ?_
    rw [show decide (a.customerPaymentId ∈ ((db.apply (.setInvoice i')).apply
      (.insertAllocation a)).posted) = true from decide_eq_true hpay]
    exact congrArg (fun id ↦ [(id, a.amount)]) hinv
  refine ⟨?_, h.payment_ids, fun b hb ↦ ?_, fun x hx ↦ ?_, h.payments_lt⟩
  · rw [hlv]
    refine Conserved.perm ?_ (List.perm_append_singleton _ _).symm
    exact h.conserved.draw hi hdr.id hdr.amount hdr.outstanding hdr.paid_iff a.amount_pos
      hdr.le
  · rcases mem_snoc.mp hb with hb | rfl
    · exact h.allocation_payment b hb
    · obtain ⟨p, hp, -, hid⟩ := mem_posted.mp hpay
      exact mem_map.mpr ⟨p, hp, hid⟩
  · rcases mem_update hx with rfl | ⟨hx, -⟩
    · exact hdr.id ▸ h.invoices_lt i hi
    · exact h.invoices_lt x hx

theorem insertInvoice (lines : List InvoiceLine) (hn : n ≤ i.id) (hm : i.id < m)
    (hout : i.outstandingAmount = i.amount) (hpos : 0 < i.amount) (hpaid : i.status ≠ .paid) :
    Books { db with invoices := db.invoices ++ [i], lines := lines } m where
  conserved := by
    refine h.conserved.insert (fun hmem ↦ ?_) hout hpos hpaid
    obtain ⟨x, hx, hxid⟩ := mem_map.mp hmem
    exact absurd (h.invoices_lt x hx) (not_lt.mpr (hn.trans (Eq.ge hxid)))
  payment_ids := h.payment_ids
  allocation_payment := h.allocation_payment
  invoices_lt x hx := by
    rcases mem_snoc.mp hx with hx | rfl
    · exact (h.invoices_lt x hx).trans (hn.trans_lt hm)
    · exact hm
  payments_lt p hp := (h.payments_lt p hp).trans (hn.trans_lt hm)

theorem voidPayment {invoices : List CustomerInvoice} (hp : p ∈ db.payments)
    (hids : invoices.map (·.id) = db.invoices.map (·.id))
    (hcons : Conserved invoiceView invoices ((db.allocations.filter fun a ↦
      a.customerPaymentId ∈ db.posted ∧ a.customerPaymentId ≠ p.id).map (·.part))) :
    Books (({ db with invoices } : ReceivablesDb).apply (.setPayment { p with status := .voided }))
      n := by
  set db' := ({ db with invoices } : ReceivablesDb).apply (.setPayment { p with status := .voided })
  have hpd : ∀ id, id ∈ db'.posted ↔ id ∈ db.posted ∧ id ≠ p.id := fun id ↦ by
    rw [mem_posted, mem_posted]
    constructor
    · rintro ⟨x, hx, hst, rfl⟩
      rcases mem_update hx with rfl | ⟨hx, hne⟩
      · cases hst
      · exact ⟨⟨x, hx, hst, rfl⟩, hne⟩
    · rintro ⟨⟨x, hx, hst, rfl⟩, hne⟩
      exact ⟨x, mem_update_of_ne hx hne, hst, rfl⟩
  have hlv : db'.live = (db.allocations.filter fun a ↦
      a.customerPaymentId ∈ db.posted ∧ a.customerPaymentId ≠ p.id).map (·.part) :=
    congrArg (List.map _) (filter_congr fun a _ ↦ decide_eq_decide.mpr (hpd _))
  have hpids : db'.payments.map (·.id) = db.payments.map (·.id) := map_key_update db.payments _
  refine ⟨hlv ▸ hcons, hpids ▸ h.payment_ids, hpids ▸ h.allocation_payment, fun i hi ↦ ?_,
    fun x hx ↦ ?_⟩
  · have hmem : i.id ∈ db.invoices.map (·.id) := hids ▸ mem_map_of_mem hi
    obtain ⟨x, hx, hxid⟩ := mem_map.mp hmem
    exact hxid ▸ h.invoices_lt x hx
  · rcases mem_update hx with rfl | ⟨hx, -⟩
    · exact h.payments_lt p hp
    · exact h.payments_lt x hx

end Books

end FuelGrid.Receivables
