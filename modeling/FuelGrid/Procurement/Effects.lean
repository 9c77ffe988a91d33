import FuelGrid.Procurement.Handlers

/-!
# What the handlers change

What a request does to invoices, lines and discrepancies when it is executed alone. Later modules
about what is billed use this and do not look into the programs again.
-/

namespace FuelGrid.Procurement

open Sql

structure Keys (db : ProcurementDb) : Prop where
  invoices : (db.invoices.map (·.id)).Nodup
  discrepancies : (db.discrepancies.map (·.id)).Nodup

section Keys

variable {db : ProcurementDb}

theorem Keys.setInvoice (h : Keys db) (inv : SupplierInvoice) :
    Keys (db.apply (.setInvoice inv)) where
  invoices := nodup_key_update h.invoices inv
  discrepancies := h.discrepancies

theorem Keys.setDiscrepancy (h : Keys db) (d : ProcurementDiscrepancy) :
    Keys (db.apply (.setDiscrepancy d)) where
  invoices := h.invoices
  discrepancies := nodup_key_update h.discrepancies d

theorem Keys.eq_invoice (h : Keys db) {i : Uuid} {inv : SupplierInvoice}
    (hinv : db.invoice i = some inv) :
    ∀ x ∈ db.invoices, x.id = i → x = inv := by
  obtain ⟨hmem, hid⟩ := key_of_find? hinv
  exact fun x hx hxid ↦ inj_on_of_nodup_map h.invoices hx hmem (hxid.trans hid.symm)

end Keys

/-! ## What is billed -/

/-- What an invoice says for good. -/
def SupplierInvoice.bill (inv : SupplierInvoice) : Uuid × ℤ := (inv.id, inv.totalAmount)

/-- What a discrepancy says for good. -/
def ProcurementDiscrepancy.finding (d : ProcurementDiscrepancy) : Uuid × Mismatch :=
  (d.id, d.toMismatch)

/-- The two states differ in statuses only. -/
structure SameBills (db db' : ProcurementDb) : Prop where
  orderLines : db'.orderLines = db.orderLines
  deliveries : db'.deliveries = db.deliveries
  lines : db'.lines = db.lines
  bills : db'.invoices.map (·.bill) = db.invoices.map (·.bill)
  findings : db'.discrepancies.map (·.finding) = db.discrepancies.map (·.finding)

namespace SameBills

variable {db db' db'' : ProcurementDb} {d : ProcurementDiscrepancy}

theorem refl (db : ProcurementDb) : SameBills db db := ⟨rfl, rfl, rfl, rfl, rfl⟩

theorem trans (h : SameBills db db') (h' : SameBills db' db'') : SameBills db db'' :=
  ⟨h'.orderLines.trans h.orderLines, h'.deliveries.trans h.deliveries, h'.lines.trans h.lines,
    h'.bills.trans h.bills, h'.findings.trans h.findings⟩

theorem setInvoice (hks : Keys db) {inv inv' : SupplierInvoice} (hinv : inv ∈ db.invoices)
    (hbill : inv'.bill = inv.bill) : SameBills db (db.apply (.setInvoice inv')) := by
  refine ⟨rfl, rfl, rfl, ?_, rfl⟩
  refine map_update fun x hx hid ↦ ?_
  have hid : x.id = inv.id := hid.trans (congrArg Prod.fst hbill)
  rw [inj_on_of_nodup_map hks.invoices hx hinv hid, hbill]

theorem setDiscrepancy (hks : Keys db) {d' : ProcurementDiscrepancy} (hd : d ∈ db.discrepancies)
    (hfin : d'.finding = d.finding) : SameBills db (db.apply (.setDiscrepancy d')) := by
  refine ⟨rfl, rfl, rfl, rfl, ?_⟩
  refine map_update fun x hx hid ↦ ?_
  have hid : x.id = d.id := hid.trans (congrArg Prod.fst hfin)
  rw [inj_on_of_nodup_map hks.discrepancies hx hd hid, hfin]

theorem mem_invoices (h : SameBills db db') {inv : SupplierInvoice} (hinv : inv ∈ db'.invoices) :
    ∃ inv0 ∈ db.invoices, inv0.id = inv.id ∧ inv0.totalAmount = inv.totalAmount := by
  have hmem : inv.bill ∈ db.invoices.map (·.bill) := h.bills ▸ mem_map_of_mem hinv
  obtain ⟨inv0, hinv0, hbill⟩ := mem_map.mp hmem
  exact ⟨inv0, hinv0, congrArg Prod.fst hbill, congrArg Prod.snd hbill⟩

theorem mem_discrepancies (h : SameBills db db') :
    d ∈ db.discrepancies → ∃ d' ∈ db'.discrepancies,
      d'.id = d.id ∧ d'.toMismatch = d.toMismatch := by
  intro hd
  have hmem : d.finding ∈ db'.discrepancies.map (·.finding) := h.findings ▸ mem_map_of_mem hd
  obtain ⟨d', hd', hfin⟩ := mem_map.mp hmem
  exact ⟨d', hd', congrArg Prod.fst hfin, congrArg Prod.snd hfin⟩

theorem symm (h : SameBills db db') : SameBills db' db :=
  ⟨h.orderLines.symm, h.deliveries.symm, h.lines.symm, h.bills.symm, h.findings.symm⟩

theorem keys (h : SameBills db db') (hks : Keys db) : Keys db' := by
  have hids : db'.invoices.map (·.id) = db.invoices.map (·.id) := by
    have := congrArg (List.map Prod.fst) h.bills
    rwa [map_map, map_map] at this
  have hds : db'.discrepancies.map (·.id) = db.discrepancies.map (·.id) := by
    have := congrArg (List.map Prod.fst) h.findings
    rwa [map_map, map_map] at this
  exact ⟨hids ▸ hks.invoices, hds ▸ hks.discrepancies⟩

end SameBills

/-! ## A new invoice -/

/-- The state with a new invoice, its lines and its discrepancies. -/
def ProcurementDb.recorded (db : ProcurementDb) (inv : SupplierInvoice)
    (ls : List SupplierInvoiceLine) (ds : List ProcurementDiscrepancy) : ProcurementDb :=
  { db with
    invoices := db.invoices ++ [inv]
    lines := db.lines ++ ls
    discrepancies := db.discrepancies ++ ds }

structure Billed (db : ProcurementDb) (invoice order : Uuid) (ln : SupplierInvoiceLineInput)
    (il : SupplierInvoiceLine) : Prop where
  orderLine : (db.orderLine order il.poLineId).isSome
  invoice : il.supplierInvoiceId = invoice
  order : il.purchaseOrderId = order
  delivery : il.deliveryId = ln.deliveryId
  delivered : ∀ d ∈ ln.deliveryId, (db.delivery d).isSome
  litres : store 14 3 ln.invoicedLitres = some il.invoicedLitres
  price : store 14 2 ln.unitPrice = some il.unitPrice
  amount : store 14 2 ln.lineAmount = some il.amount

variable {il : SupplierInvoiceLine}

private theorem insertLine_eq_some {db : ProcurementDb} {n : ℕ} {invoice order : Uuid}
    {ln : SupplierInvoiceLineInput} (h : insertLine db n invoice order ln = .ok (some il)) :
    Billed db invoice order ln il := by
  unfold insertLine at h
  split at h
  · cases h
  next pol hpol =>
  split at h
  next l p a hl hp ha =>
    split at h
    · split at h
      next hdel =>
        obtain rfl := some.inj (ok.inj h)
        have hid : pol.id = ln.poLineId := by
          have := find?_some hpol
          simp only [decide_eq_true_eq] at this
          exact this.2
        refine ⟨?_, rfl, rfl, rfl, fun d hd ↦ ?_, hl, hp, ha⟩
        · rw [hid, hpol]
          rfl
        · rw [Option.mem_def.mp hd] at hdel
          exact hdel
      · cases h
    · cases h
  · cases h

/-- What a request has recorded when ids are drawn from `n` to `n'`. -/
structure Recorded (db : ProcurementDb) (n n' : ℕ) (order : Uuid)
    (lns : List SupplierInvoiceLineInput)
    (inv : SupplierInvoice) (ls : List SupplierInvoiceLine) (ds : List ProcurementDiscrepancy) :
    Prop where
  le_id : n ≤ inv.id
  id_lt : inv.id < n'
  lines : Forall₂ (Billed db inv.id order) lns ls
  total : inv.totalAmount = (ls.map (·.amount)).sum
  raised : ds.map (·.toMismatch) = ls.filterMap (quantityMismatch db) ++
    ls.filterMap (priceMismatch db)
  raised_nodup : (ds.map (·.id)).Nodup
  raised_le : ∀ d ∈ ds, n ≤ d.id ∧ d.id < n'

/-- Ids are unique and were drawn before `n`. -/
structure Booked (db : ProcurementDb) (n : ℕ) : Prop where
  keys : Keys db
  invoices_lt : ∀ inv ∈ db.invoices, inv.id < n
  lines_lt : ∀ il ∈ db.lines, il.supplierInvoiceId < n
  discrepancies_lt : ∀ d ∈ db.discrepancies, d.id < n ∧ d.supplierInvoiceId < n

theorem Booked.mono {db : ProcurementDb} {n m : ℕ} (h : Booked db n) (hn : n ≤ m) :
    Booked db m where
  keys := h.keys
  invoices_lt inv hinv := (h.invoices_lt inv hinv).trans_le hn
  lines_lt il hil := (h.lines_lt il hil).trans_le hn
  discrepancies_lt d hd :=
    ⟨(h.discrepancies_lt d hd).1.trans_le hn, (h.discrepancies_lt d hd).2.trans_le hn⟩

section View

variable {db : ProcurementDb} {n : ℕ} {inv inv' : SupplierInvoice} {ls : List SupplierInvoiceLine}
  {ds : List ProcurementDiscrepancy}

private theorem recorded_insertLine (il : SupplierInvoiceLine) :
    (db.recorded inv ls ds).apply (.insertLine il) = db.recorded inv (ls ++ [il]) ds := by
  simp only [ProcurementDb.apply, ProcurementDb.recorded, append_assoc]

private theorem recorded_insertDiscrepancy (d : ProcurementDiscrepancy) :
    (db.recorded inv ls ds).apply (.insertDiscrepancy d) = db.recorded inv ls (ds ++ [d]) := by
  simp only [ProcurementDb.apply, ProcurementDb.recorded, append_assoc]

variable (hdb : Booked db n) (hid : n ≤ inv.id)

include hdb hid

private theorem recorded_setInvoice (hinv' : inv'.id = inv.id) :
    (db.recorded inv ls ds).apply (.setInvoice inv') = db.recorded inv' ls ds := by
  have hfr : inv'.id ∉ db.invoices.map (·.id) := fun hmem ↦ by
    obtain ⟨x, hx, hxid⟩ := mem_map.mp hmem
    exact absurd (hdb.invoices_lt x hx) (not_lt.mpr (hid.trans_eq (hinv'.symm.trans hxid.symm)))
  have hupd := update_append_singleton hfr hinv'.symm
  simp only [ProcurementDb.apply, ProcurementDb.recorded]
  rw [hupd]

private theorem invoice_recorded : (db.recorded inv ls ds).invoice inv.id = some inv := by
  have hno : db.invoices.find? (·.id = inv.id) = none := find?_key_eq_none.mpr fun x hx hxid ↦
    absurd (hdb.invoices_lt x hx) (not_lt.mpr (hid.trans_eq hxid.symm))
  change (db.invoices ++ [inv]).find? _ = _
  rw [List.find?_append, hno, Option.none_or, List.find?_singleton]
  simp

theorem linesOf_recorded (hls : ∀ il ∈ ls, il.supplierInvoiceId = inv.id) :
    (db.recorded inv ls ds).linesOf inv.id = ls := by
  change (db.lines ++ ls).filter _ = _
  have hold : db.lines.filter (·.supplierInvoiceId = inv.id) = [] := by
    rw [filter_eq_nil_iff]
    intro il hil heq
    exact absurd (hdb.lines_lt il hil) (not_lt.mpr (hid.trans_eq (of_decide_eq_true heq).symm))
  rw [filter_append, hold, nil_append, filter_eq_self]
  exact fun il hil ↦ decide_eq_true (hls il hil)

end View

section Billed

variable {db : ProcurementDb} {invoice order : Uuid} {lns : List SupplierInvoiceLineInput}
  {ls : List SupplierInvoiceLine} (h : Forall₂ (Billed db invoice order) lns ls)

include h

theorem Billed.exists_input : ∀ il ∈ ls, ∃ ln ∈ lns, Billed db invoice order ln il := by
  induction h with
  | nil => exact nofun
  | @cons ln il lns ls hl _ ih =>
    refine forall_mem_cons.mpr ⟨⟨ln, mem_cons_self, hl⟩, fun il hil ↦ ?_⟩
    obtain ⟨ln', hln', hbil⟩ := ih il hil
    exact ⟨ln', mem_cons_of_mem _ hln', hbil⟩

theorem Billed.forall_invoice : ∀ il ∈ ls, il.supplierInvoiceId = invoice := by
  intro il hil
  obtain ⟨ln, -, hbil⟩ := Billed.exists_input h il hil
  exact hbil.invoice

theorem Billed.filterMap_delivery : ls.filterMap (·.deliveryId) = lns.filterMap (·.deliveryId) := by
  induction h with
  | nil => rfl
  | cons hl _ ih => rw [List.filterMap_cons, List.filterMap_cons, hl.delivery, ih]

end Billed

/-! ## Rules -/

section Rules

variable {env : Env} {db view db' : ProcurementDb} {n m : ℕ}
  {Q : ProcurementResult → ProcurementDb → ℕ → Prop} {next : Txn env}
  {id invoice actor order : Uuid}

def Restated (invoice : Uuid) (db db' : ProcurementDb) : Prop :=
  db' = db ∨ ∃ inv ∈ db.invoices, ∃ status, inv.id = invoice ∧
    db' = db.apply (.setInvoice { inv with status })

theorem Restated.sameBills (h : Restated invoice db db') (hks : Keys db) : SameBills db db' := by
  rcases h with rfl | ⟨inv, hinv, status, -, rfl⟩
  · exact .refl _
  · exact .setInvoice hks hinv rfl

theorem yields_refreshInvoiceMatchStatus
    (hnx : ∀ view' m', m ≤ m' → Restated invoice view view' → next.Yields db Q view' m') :
    (refreshInvoiceMatchStatus env invoice next).Yields db Q view m := by
  refine yields_read rfl fun count ↦ ?_
  refine yields_read rfl ?_
  rintro (_ | row)
  · exact hnx view _ (by omega) (.inl rfl)
  dsimp only
  rw [yields_lock]
  refine yields_step fun ws r hout ↦ ?_
  obtain ⟨-, rfl, rfl⟩ | ⟨inv', hset, rfl, rfl⟩ := loggedUpdate_eq hout
  · exact hnx _ _ (by omega) (.inl rfl)
  · obtain ⟨inv, hfi, rfl⟩ := map_eq_some_iff.mp hset
    have hsm : inv.id = invoice ∧ inv.status ≠ .approved := by simpa using find?_some hfi
    exact hnx _ _ (by omega) (.inr ⟨inv, mem_of_find?_eq_some hfi,
      matchStatus count, hsm.1, rfl⟩)

theorem yields_handleApproveSupplierInvoice (hks : Keys db)
    (hok : ∀ a db' n', SameBills db db' → Q a db' n') :
    (handleApproveSupplierInvoice env actor id).Yields db Q db n := by
  refine yields_read rfl ?_
  rintro (_ | before)
  · trivial
  dsimp only
  unfold authorizeStation
  split
  swap
  · trivial
  refine yields_read rfl fun count ↦ ?_
  split
  · trivial
  refine yields_read rfl ?_
  rintro (_ | row)
  · trivial
  dsimp only
  rw [yields_lock]
  refine yields_read rfl ?_
  rintro (_ | inv)
  · trivial
  dsimp only
  split
  · trivial
  split
  · trivial
  refine yields_step fun ws r hout ↦ ?_
  obtain ⟨-, rfl, rfl⟩ | ⟨inv', happ, rfl, rfl⟩ := loggedUpdate_eq hout
  · refine yields_read rfl ?_
    rintro (_ | before)
    · trivial
    dsimp only
    split <;> trivial
  · obtain ⟨inv, hfi, rfl⟩ := map_eq_some_iff.mp happ
    exact hok _ _ _ (.setInvoice hks (mem_of_find?_eq_some hfi) rfl)

theorem yields_refuseResolution : (refuseResolution env id).Yields db Q view m := by
  refine yields_read rfl fun d ↦ ?_
  rcases d with _ | d <;> trivial

theorem yields_handleResolveProcurementDiscrepancy {status : String} (hks : Keys db)
    (hok : ∀ a db' n', SameBills db db' → Q a db' n') :
    (handleResolveProcurementDiscrepancy env actor id status).Yields db Q db n := by
  unfold handleResolveProcurementDiscrepancy
  split
  · trivial
  refine yields_read rfl ?_
  rintro (_ | before)
  · trivial
  refine yields_read rfl ?_
  rintro (_ | inv)
  · trivial
  dsimp only
  unfold authorizeStation
  split
  swap
  · trivial
  refine yields_read rfl ?_
  rintro (_ | row)
  · exact yields_refuseResolution
  dsimp only
  rw [yields_lock]
  refine yields_step fun ws r hout ↦ ?_
  obtain ⟨-, rfl, rfl⟩ | ⟨d', hres, rfl, rfl⟩ := loggedUpdate_eq hout
  · exact yields_refuseResolution
  · obtain ⟨d, hfi, rfl⟩ := map_eq_some_iff.mp hres
    have hreo : SameBills db (db.apply (.setDiscrepancy
        { d with status := .resolved, resolvedBy := some actor })) :=
      .setDiscrepancy hks (mem_of_find?_eq_some hfi) rfl
    refine yields_refreshInvoiceMatchStatus fun view' m' _ hret ↦ hok _ _ _ ?_
    exact hreo.trans (hret.sameBills (hks.setDiscrepancy _))

section Recording

variable {inv : SupplierInvoice} {ls : List SupplierInvoiceLine} {ds : List ProcurementDiscrepancy}
  {lns : List SupplierInvoiceLineInput}

theorem yields_refuseRecord {e : PgError} : (refuseRecord env e).Yields db Q view m := by
  cases e <;> trivial

theorem yields_insertLines
    (hnx : ∀ ls' m', m ≤ m' → Forall₂ (Billed db inv.id order) lns ls' →
      next.Yields db Q (db.recorded inv (ls ++ ls') ds) m') :
    (insertLines env inv.id order next lns).Yields db Q (db.recorded inv ls ds) m := by
  induction lns generalizing ls m with
  | nil => exact append_nil ls ▸ hnx [] m le_rfl .nil
  | cons ln lns ih =>
    refine yields_step fun ws r hout ↦ ?_
    obtain ⟨e, -, rfl, rfl⟩ | ⟨-, rfl, rfl⟩ | ⟨il, hins, rfl, rfl⟩ := loggedRow_eq hout
    · exact yields_refuseRecord
    · trivial
    -- orders and deliveries are those of the state before
    have hil : Billed db inv.id order ln il := by
      have hil := insertLine_eq_some hins
      exact { hil with orderLine := hil.orderLine, delivered := hil.delivered }
    change (insertLines env inv.id order next lns).Yields db Q
      ((db.recorded inv ls ds).apply (.insertLine il)) (m + 1)
    rw [recorded_insertLine]
    refine ih fun ls' m' hm hls' ↦ ?_
    rw [append_assoc, singleton_append]
    exact hnx (il :: ls') m' ((le_succ m).trans hm) (.cons hil hls')

theorem yields_insertDiscrepancies {ms : List Mismatch}
    (hnx : ∀ ds' m', m ≤ m' → ds'.map (·.toMismatch) = ms → (ds'.map (·.id)).Nodup →
      (∀ d ∈ ds', m ≤ d.id ∧ d.id < m') → next.Yields db Q (db.recorded inv ls (ds ++ ds')) m') :
    (insertDiscrepancies env next ms).Yields db Q (db.recorded inv ls ds) m := by
  induction ms generalizing ds m with
  | nil => exact append_nil ds ▸ hnx [] m le_rfl rfl nodup_nil nofun
  | cons mm ms ih =>
    refine yields_step fun ws r hout ↦ ?_
    cases hout
    change (insertDiscrepancies env next ms).Yields db Q
      ((db.recorded inv ls ds).apply (.insertDiscrepancy (mm.raised m))) (m + 1)
    rw [recorded_insertDiscrepancy]
    refine ih fun ds' m' hm hms hnd hids ↦ ?_
    -- the ids of the discrepancies that follow are drawn later
    have hfr : m ∉ ds'.map (·.id) := fun hmem ↦ by
      obtain ⟨d, hd, hid⟩ := mem_map.mp hmem
      have := (hids d hd).1
      omega
    rw [append_assoc, singleton_append]
    refine hnx (mm.raised m :: ds') m' ((le_succ m).trans hm) ?_
      (nodup_cons.mpr ⟨hfr, hnd⟩)
      (forall_mem_cons.mpr ⟨⟨le_rfl, hm⟩, fun d hd ↦ ⟨(le_succ m).trans (hids d hd).1,
        (hids d hd).2⟩⟩)
    rw [map_cons, hms]
    rfl

private theorem setTotal_eq_ok {row : Option SupplierInvoice} (hinv : db.invoice id = some inv)
    (h : setTotal db id = .ok row) : ∃ inv', row = some inv' ∧ inv'.id = inv.id ∧
      inv'.totalAmount = ((db.linesOf id).map (·.amount)).sum := by
  unfold setTotal at h
  rw [hinv] at h
  dsimp only at h
  split at h
  · split at h
    · exact ⟨_, (ok.inj h).symm, rfl, rfl⟩
    · cases h
  · cases h

theorem Restated.recorded (hdb : Booked db n) (hid : n ≤ inv.id)
    (h : Restated inv.id (db.recorded inv ls ds) db') :
    ∃ inv', inv'.id = inv.id ∧ inv'.totalAmount = inv.totalAmount ∧
    db' = db.recorded inv' ls ds := by
  rcases h with rfl | ⟨x, hx, status, hxid, rfl⟩
  · exact ⟨inv, rfl, rfl, rfl⟩
  · rcases mem_snoc.mp hx with hx | rfl
    · exact absurd (hdb.invoices_lt x hx) (not_lt.mpr (hid.trans_eq hxid.symm))
    · exact ⟨{ x with status }, rfl, rfl, recorded_setInvoice hdb hid rfl⟩

theorem yields_raiseInvoiceDiscrepancies (hdb : Booked db n) (hid : n ≤ inv.id)
    (hls : ∀ il ∈ ls, il.supplierInvoiceId = inv.id)
    (hnx : ∀ ds m', m ≤ m' → ds.map (·.toMismatch) =
        ls.filterMap (quantityMismatch db) ++ ls.filterMap (priceMismatch db) →
      (ds.map (·.id)).Nodup → (∀ d ∈ ds, m ≤ d.id ∧ d.id < m') →
      next.Yields db Q (db.recorded inv ls ds) m') :
    (raiseInvoiceDiscrepancies env inv.id next).Yields db Q (db.recorded inv ls []) m := by
  refine yields_reply rfl fun quantity hqua ↦ ?_
  have hqua : mismatches (db.recorded inv ls []) inv.id .quantity = quantity := hqua
  rw [mismatches, linesOf_recorded hdb hid hls] at hqua
  refine yields_insertDiscrepancies fun ds1 m1 hm1 hms1 hnd1 hids1 ↦ ?_
  rw [nil_append]
  refine yields_reply rfl fun price hpri ↦ ?_
  have hpri : mismatches (db.recorded inv ls ds1) inv.id .price = price := hpri
  rw [mismatches, linesOf_recorded hdb hid hls] at hpri
  refine yields_insertDiscrepancies fun ds2 m2 hm2 hms2 hnd2 hids2 ↦ ?_
  refine hnx (ds1 ++ ds2) m2 (by omega) ?_ ?_ ?_
  · rw [map_append, hms1, hms2, ← hqua, ← hpri]
    rfl
  · rw [map_append]
    refine hnd1.append hnd2 fun id hid1 hid2 ↦ ?_
    obtain ⟨d1, hd1, rfl⟩ := mem_map.mp hid1
    obtain ⟨d2, hd2, heq⟩ := mem_map.mp hid2
    have hle : m1 ≤ d1.id := (le_succ m1).trans ((hids2 d2 hd2).1.trans_eq heq)
    exact absurd (hids1 d1 hd1).2 (not_lt.mpr hle)
  · intro d hd
    rcases mem_append.mp hd with hd | hd
    · have := hids1 d hd
      omega
    · have := hids2 d hd
      omega

theorem yields_finishRecord (hdb : Booked db n) (hid : n ≤ inv.id) (hid' : inv.id < m)
    (hls : Forall₂ (Billed db inv.id order) lns ls)
    (hok : ∀ a inv ls ds n', Recorded db n n' order lns inv ls ds →
      Q a (db.recorded inv ls ds) n') :
    (finishRecord env inv.id).Yields db Q (db.recorded inv ls []) m := by
  have hinv := Billed.forall_invoice hls
  refine yields_step fun ws r hout ↦ ?_
  have htot {row : Option SupplierInvoice}
      (hset : setTotal (db.recorded inv ls []) inv.id = .ok row) :=
    setTotal_eq_ok (invoice_recorded hdb hid) hset
  obtain ⟨e, -, rfl, rfl⟩ | ⟨hset, -, -⟩ | ⟨inv1, hset, rfl, rfl⟩ := loggedRow_eq hout
  · exact yields_refuseRecord
  · obtain ⟨_, hno, -⟩ := htot hset
    cases hno
  obtain ⟨_, ⟨⟩, hid1, htoa⟩ := htot hset
  rw [linesOf_recorded hdb hid hinv] at htoa
  have hid1' : n ≤ inv1.id := hid.trans_eq hid1.symm
  change (raiseInvoiceDiscrepancies env inv.id _).Yields db Q
    ((db.recorded inv ls []).apply (.setInvoice inv1)) (m + 1)
  rw [recorded_setInvoice hdb hid hid1, ← hid1]
  refine yields_raiseInvoiceDiscrepancies hdb hid1' (hid1 ▸ hinv)
    fun ds m2 hm2 hrai hnd hids ↦ ?_
  refine yields_refreshInvoiceMatchStatus fun view3 m3 hm3 hres ↦ ?_
  obtain ⟨inv3, hid3, htot3, rfl⟩ := hres.recorded hdb hid1'
  refine yields_read rfl fun answer ↦ ?_
  have hnm : n ≤ m := hid.trans hid'.le
  have hm : m ≤ m3 + 1 := by omega
  refine hok _ inv3 ls ds _ {
    le_id := hid.trans_eq (hid3.trans hid1).symm
    id_lt := (hid3.trans hid1).trans_lt (hid'.trans_le hm)
    lines := (hid3.trans hid1).symm ▸ hls
    total := htot3.trans htoa
    raised := hrai
    raised_nodup := hnd
    raised_le := fun d hd ↦ ⟨hnm.trans ((le_succ m).trans (hids d hd).1),
      (hids d hd).2.trans_le (hm3.trans (le_succ m3))⟩ }

end Recording

theorem yields_recordSupplierInvoice {input : SupplierInvoiceInput} (hdb : Booked db n) (hn : n ≤ m)
    (hok : ∀ a inv ls ds n', Recorded db n n' input.purchaseOrderId input.lines inv ls ds →
      Q a (db.recorded inv ls ds) n') :
    (recordSupplierInvoice env input).Yields db Q db m := by
  refine yields_read rfl ?_
  rintro (_ | order)
  · trivial
  dsimp only
  split
  · trivial
  rw [yields_lock]
  refine yields_step fun ws r hout ↦ ?_
  obtain ⟨e, -, rfl, rfl⟩ | ⟨inv, hins, rfl, rfl⟩ := logged_eq hout
  · exact yields_refuseRecord
  have hid : inv.id = m + 1 := by
    unfold insertInvoice at hins
    split at hins
    · cases hins
    · rw [← ok.inj hins]
  have hvw : db.apply (.insertInvoice inv) = db.recorded inv [] [] := by
    change { db with invoices := db.invoices ++ [inv] } = _
    simp only [ProcurementDb.recorded, append_nil]
  change (insertLines env inv.id _ _ _).Yields db Q (db.apply (.insertInvoice inv)) _
  rw [hvw]
  refine yields_insertLines fun ls m' hm hls ↦ ?_
  exact yields_finishRecord hdb (hid ▸ hn.trans (le_succ m)) (hid.trans_lt hm) hls hok

theorem yields_handleRecordSupplierInvoice {req : RecordInvoiceRequest} (hdb : Booked db n)
    (hok : ∀ a order lns inv ls ds n', req.purchaseOrderId = some order →
      req.lines.mapM (RecordInvoiceLineRequest.input env) = some lns →
      Recorded db n n' order lns inv ls ds → Q a (db.recorded inv ls ds) n') :
    (handleRecordSupplierInvoice env req).Yields db Q db n := by
  unfold handleRecordSupplierInvoice
  split
  · trivial
  next order hord =>
  split
  · trivial
  split
  · trivial
  split
  · trivial
  refine yields_read rfl ?_
  rintro (_ | po)
  · trivial
  dsimp only
  unfold authorizeStation
  split
  swap
  · trivial
  split
  · trivial
  next lns hlns =>
  exact yields_recordSupplierInvoice hdb (le_succ n) fun a inv ls ds n' hrec ↦
    hok a order lns inv ls ds n' hord hlns hrec

end Rules

/-! ## Steps

Executed alone, a request is refused, or it records an invoice with its lines and discrepancies, or
it moves statuses only (`ProcurementOp.step`). -/

/-- What a request does to the bills, when ids are drawn from `n` to `n'`. -/
inductive BillStep (env : Env) (db : ProcurementDb) (n n' : ℕ) : ProcurementOp →
    ProcurementDb → Prop
  | kept (op : ProcurementOp) {db' : ProcurementDb} (h : SameBills db db') :
    BillStep env db n n' op db'
  | recorded {req : RecordInvoiceRequest} {order : Uuid} {lns : List SupplierInvoiceLineInput}
      {inv : SupplierInvoice} {ls : List SupplierInvoiceLine} {ds : List ProcurementDiscrepancy}
      (horder : req.purchaseOrderId = some order)
      (hlns : req.lines.mapM (RecordInvoiceLineRequest.input env) = some lns)
      (h : Recorded db n n' order lns inv ls ds) :
      BillStep env db n n' (.record req) (db.recorded inv ls ds)

theorem ProcurementOp.step (env : Env) {db : ProcurementDb} {n : ℕ} (hdb : Booked db n)
    (op : ProcurementOp) :
    BillStep env db n ((op.prog env).alone db [] n).2.2 op ((op.prog env).alone db [] n).2.1 := by
  let R : Except HttpError ProcurementResult × ProcurementDb × ℕ → Prop := fun out ↦
    BillStep env db n out.2.2 op out.2.1
  change R ((op.prog env).alone db [] n)
  refine alone_of_yields (fun _ _ _ ↦ .kept op (.refl db)) ?_
  rcases op with req | ⟨actor, id⟩ | ⟨actor, id, status⟩
  · exact yields_handleRecordSupplierInvoice hdb fun a order lns inv ls ds n' hord hlns h _ ↦
      .recorded hord hlns h
  · exact yields_handleApproveSupplierInvoice hdb.keys fun _ _ _ h _ ↦ .kept _ h
  · exact yields_handleResolveProcurementDiscrepancy hdb.keys fun _ _ _ h _ ↦ .kept _ h

/-- No invoice has been recorded. -/
structure NoInvoices (db : ProcurementDb) : Prop where
  invoices : db.invoices = []
  lines : db.lines = []
  discrepancies : db.discrepancies = []

theorem NoInvoices.booked {db : ProcurementDb} (h : NoInvoices db) (n : ℕ) : Booked db n := by
  refine ⟨⟨?_, ?_⟩, fun inv hinv ↦ ?_, fun il hil ↦ ?_, fun d hd ↦ ?_⟩
  · rw [h.invoices]
    exact nodup_nil
  · rw [h.discrepancies]
    exact nodup_nil
  · exact absurd (h.invoices ▸ hinv) not_mem_nil
  · exact absurd (h.lines ▸ hil) not_mem_nil
  · exact absurd (h.discrepancies ▸ hd) not_mem_nil

theorem Booked.kept {db db' : ProcurementDb} {n : ℕ} (hdb : Booked db n) (h : SameBills db db') :
    Booked db' n where
  keys := h.keys hdb.keys
  invoices_lt inv hinv := by
    obtain ⟨inv0, hinv0, hid, -⟩ := h.mem_invoices hinv
    exact hid ▸ hdb.invoices_lt inv0 hinv0
  lines_lt il hil := hdb.lines_lt il (h.lines ▸ hil)
  discrepancies_lt d hd := by
    obtain ⟨d0, hd0, hid, hmm⟩ := h.symm.mem_discrepancies hd
    rw [← hid, ← hmm]
    exact hdb.discrepancies_lt d0 hd0

structure Mismatch.Of (m : Mismatch) (il : SupplierInvoiceLine) : Prop where
  invoice : m.supplierInvoiceId = il.supplierInvoiceId
  orderLine : m.poLineId = il.poLineId
  delivery : m.deliveryId = il.deliveryId

theorem quantityMismatch_eq_some {db : ProcurementDb} {m : Mismatch}
    (h : quantityMismatch db il = some m) : m.Of il := by
  obtain ⟨pol, -, h⟩ := bind_eq_some_iff.mp h
  dsimp only at h
  split at h
  · cases h
    exact ⟨rfl, rfl, rfl⟩
  · cases h

variable {pol : PurchaseOrderLine}

theorem litres_le_of_quantityMismatch {db : ProcurementDb}
    (hpol : db.orderLine il.purchaseOrderId il.poLineId = some pol)
    (h : quantityMismatch db il = none) :
    litres il.invoicedLitres ≤ litres (referenceLitres db il pol) +
      quantityTolerance (litres (referenceLitres db il pol)) := by
  have h := Option.bind_eq_none_iff.mp h pol hpol
  dsimp only at h
  split at h
  · cases h
  next hle =>
    have := le_of_abs_le (not_lt.mp hle)
    linarith

section Recorded

variable {db : ProcurementDb} {n n' : ℕ} {order : Uuid} {lns : List SupplierInvoiceLineInput}
  {inv : SupplierInvoice} {ls : List SupplierInvoiceLine} {ds : List ProcurementDiscrepancy}

theorem Recorded.of_raised (h : Recorded db n n' order lns inv ls ds) :
    ∀ d ∈ ds, ∃ il ∈ ls, d.toMismatch.Of il := by
  intro d hd
  have hmem : d.toMismatch ∈ ds.map (·.toMismatch) := mem_map_of_mem hd
  rw [h.raised] at hmem
  rcases mem_append.mp hmem with hmem | hmem
  · obtain ⟨il, hil, heq⟩ := mem_filterMap.mp hmem
    exact ⟨il, hil, quantityMismatch_eq_some heq⟩
  · obtain ⟨il, hil, heq⟩ := mem_filterMap.mp hmem
    obtain ⟨pol, -, heq⟩ := bind_eq_some_iff.mp heq
    split at heq
    · exact ⟨il, hil, some.inj heq ▸ ⟨rfl, rfl, rfl⟩⟩
    · cases heq

theorem Recorded.raised_invoice (h : Recorded db n n' order lns inv ls ds) :
    ∀ d ∈ ds, d.supplierInvoiceId = inv.id := by
  intro d hd
  obtain ⟨il, hil, hof⟩ := h.of_raised d hd
  exact hof.invoice.trans (Billed.forall_invoice h.lines il hil)

theorem Recorded.mem_raised (h : Recorded db n n' order lns inv ls ds) (hil : il ∈ ls)
    {m : Mismatch} (hm : quantityMismatch db il = some m ∨ priceMismatch db il = some m) :
    ∃ d ∈ ds, d.toMismatch = m := by
  have hmem : m ∈ ds.map (·.toMismatch) := by
    rw [h.raised]
    rcases hm with hm | hm
    · exact mem_append_left _ (mem_filterMap.mpr ⟨il, hil, hm⟩)
    · exact mem_append_right _ (mem_filterMap.mpr ⟨il, hil, hm⟩)
  obtain ⟨d, hd, hdm⟩ := mem_map.mp hmem
  exact ⟨d, hd, hdm⟩

theorem Booked.recorded (hdb : Booked db n) (h : Recorded db n n' order lns inv ls ds) :
    Booked (db.recorded inv ls ds) n' := by
  have hn : n ≤ n' := h.le_id.trans h.id_lt.le
  have hold := hdb.mono hn
  refine ⟨⟨?_, ?_⟩, fun x hx ↦ ?_, fun il hil ↦ ?_, fun d hd ↦ ?_⟩
  · change ((db.invoices ++ [inv]).map (·.id)).Nodup
    exact nodup_key_snoc hdb.keys.invoices fun y hy hid ↦
      absurd (hdb.invoices_lt y hy) (not_lt.mpr (h.le_id.trans_eq hid.symm))
  · change ((db.discrepancies ++ ds).map (·.id)).Nodup
    refine nodup_key_append hdb.keys.discrepancies h.raised_nodup fun d hd ↦ ?_
    exact find?_key_eq_none.mpr fun y hy hid ↦
      absurd (hdb.discrepancies_lt y hy).1 (not_lt.mpr ((h.raised_le d hd).1.trans_eq hid.symm))
  · rcases mem_snoc.mp hx with hx | rfl
    · exact hold.invoices_lt x hx
    · exact h.id_lt
  · rcases mem_append.mp hil with hil | hil
    · exact hold.lines_lt il hil
    · rw [Billed.forall_invoice h.lines il hil]
      exact h.id_lt
  · rcases mem_append.mp hd with hd | hd
    · exact hold.discrepancies_lt d hd
    · rw [h.raised_invoice d hd]
      exact ⟨(h.raised_le d hd).2, h.id_lt⟩

theorem Recorded.linesOf_old (h : Recorded db n n' order lns inv ls ds) {x : SupplierInvoice}
    (hx : x.id < n) : (db.recorded inv ls ds).linesOf x.id = db.linesOf x.id := by
  change (db.lines ++ ls).filter _ = _
  have hnew : ls.filter (·.supplierInvoiceId = x.id) = [] := by
    rw [filter_eq_nil_iff]
    intro il hil heq
    have hid := (Billed.forall_invoice h.lines il hil).symm.trans (of_decide_eq_true heq)
    exact absurd hx (not_lt.mpr (h.le_id.trans_eq hid))
  rw [filter_append, hnew, append_nil]
  rfl

end Recorded

end FuelGrid.Procurement
