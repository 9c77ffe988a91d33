import FuelGrid.Payables.Handlers

/-!
# What the handlers do to the books

A request is refused and leaves the books (`ApBooks`) as they were, or it is one of two steps
(`ApStep`): an import opens payables and posts an entry for each of them, and a payment draws its
allocations from payables and posts one entry.
-/

namespace FuelGrid.Payables

open Sql

/-! ## The books

The books of accounts payable are a few columns of the tables: what each payable is for and what is
outstanding of it, which supplier each payment was recorded for, the allocations, and the lines of
the journal. -/

/-- A payable without its links. -/
structure Item where
  id : Uuid
  supplierId : Uuid
  amount : Money
  outstanding : Money
  status : PayableStatus

def Payable.item (p : Payable) : Item :=
  ⟨p.id, p.supplierId, p.amount, p.outstandingAmount, p.status⟩

def SupplierPayment.payer (p : SupplierPayment) : Uuid × Uuid := (p.id, p.supplierId)

/-- The books of accounts payable. -/
structure ApBooks where
  items : List Item
  payers : List (Uuid × Uuid)
  allocations : List PaymentAllocation
  lines : List JournalLine

def PayablesDb.books (db : PayablesDb) : ApBooks where
  items := db.payables.map (·.item)
  payers := db.payments.map (·.payer)
  allocations := db.allocations
  lines := db.ledger.lines

/-- Rows have ids of their own, drawn before `n`. -/
structure ApBooks.Keyed (b : ApBooks) (n : ℕ) : Prop where
  item_ids : (b.items.map (·.id)).Nodup
  items_lt : ∀ i ∈ b.items, i.id < n
  payer_ids : (b.payers.map (·.1)).Nodup
  payers_lt : ∀ p ∈ b.payers, p.1 < n
  lines_lt : ∀ l ∈ b.lines, l.journalEntryId < n

/-- An allocation is drawn from an item. The subtracted text and the recorded part are rounded
separately. -/
structure Draw (payment : Uuid) (al : AllocationRequest) (i i' : Item) (a : PaymentAllocation) :
    Prop where
  payment : a.supplierPaymentId = payment
  payable : a.payableId = i.id
  id : i.id = al.payableId
  le : al.amount ≤ .ofUnits 2 i.outstanding
  recorded : al.amount.store 14 2 = some a.amount
  drawn : ∃ left settled, al.amount.drawn 14 2 i.outstanding = some (left, settled) ∧
    i' = { i with outstanding := left, status := if settled then .paid else .partiallyPaid }

/-- The allocations of a payment, drawn one after the other. -/
inductive Draws (payment : Uuid) :
    List Item → List AllocationRequest → List PaymentAllocation → List Item → Prop
  | nil (items : List Item) : Draws payment items [] [] items
  | cons {items items' : List Item} {al : AllocationRequest} {als : List AllocationRequest}
      {a : PaymentAllocation} {as : List PaymentAllocation} {i i' : Item} (hi : i ∈ items)
      (hdraw : Draw payment al i i' a)
      (hrest : Draws payment (items.map fun x ↦ if x.id = i'.id then i' else x) als as items') :
      Draws payment items (al :: als) (a :: as) items'

/-- A payable as an import creates it. -/
structure Item.New (i : Item) (n n' : ℕ) : Prop where
  le_id : n ≤ i.id
  id_lt : i.id < n'
  outstanding : i.outstanding = i.amount
  status : i.status = .opened

def PostedFor (chart : Chart) (n n' : ℕ) (i : Item) (lines : List JournalLine) : Prop :=
  ∃ actor today p e, Payable.item p = i ∧
    Posts chart (importEntry actor today p) n n' e lines

/-- What a request does to the books, when ids are drawn from `n` to `n'`. -/
inductive ApStep (chart : Chart) (b : ApBooks) (n n' : ℕ) : PayablesOp → ApBooks → Prop
  | refused (op : PayablesOp) : ApStep chart b n n' op b
  | imported {actor : Uuid} {invoices : List SupplierInvoice} {today now : ℤ} {items : List Item}
      {groups : List (List JournalLine)} (hids : (items.map (·.id)).Nodup)
      (hnew : ∀ i ∈ items, i.New n n')
      (hposted : Forall₂ (PostedFor chart n n') items groups) :
      ApStep chart b n n' (.importPayables actor invoices today now)
        { b with items := b.items ++ items, lines := b.lines ++ groups.flatten }
  | paid {req : PaymentRequest} {supplier payment : Uuid} {items : List Item}
      {as : List PaymentAllocation} {date : ℤ} {e : JournalEntry} {lines : List JournalLine}
      (hsupplier : req.supplierId = some supplier) (hid : n ≤ payment) (hid' : payment < n')
      (hdraws : Draws payment b.items req.allocations as items)
      (hposted : Posts chart (paymentEntry req payment date) n n' e lines) :
      ApStep chart b n n' (.recordPayment req)
        { items, payers := b.payers ++ [(payment, supplier)], allocations := b.allocations ++ as,
          lines := b.lines ++ lines }

/-! ## The statements on the books -/

variable {payment supplier : Uuid} {b : ApBooks} {chart : Chart} {items : List Item}
  {amount : Numeric} {als : List AllocationRequest} {lines : List JournalLine}
  {al : AllocationRequest} {a : PaymentAllocation} {req : PaymentRequest} {date now : ℤ}

section Statements

variable {db : PayablesDb} {n m : ℕ}

theorem applyPayment_eq_some {id : Uuid} {p' : Payable}
    (h : applyPayment db id amount = .ok (some p')) :
    ∃ p ∈ db.payables, p.id = id ∧ amount ≤ .ofUnits 2 p.outstandingAmount ∧
      ∃ left settled, amount.drawn 14 2 p.outstandingAmount = some (left, settled) ∧
        p'.item = { p.item with
          outstanding := left, status := if settled then .paid else .partiallyPaid } := by
  unfold applyPayment at h
  split at h
  · cases h
  next p hfi =>
    have hp : p.Open id amount := by simpa using find?_some hfi
    split at h
    · cases h
    next left settled hdr =>
      split at h
      · obtain rfl := some.inj (ok.inj h)
        exact ⟨p, mem_of_find?_eq_some hfi, hp.1, hp.2.2, left, settled, hdr, rfl⟩
      · cases h

theorem insertAllocation_eq_ok {payable : Uuid}
    (h : insertAllocation db payment payable amount = .ok a) :
    a.supplierPaymentId = payment ∧ a.payableId = payable ∧ amount.store 14 2 = some a.amount := by
  unfold insertAllocation at h
  split at h
  · cases h
  next x hx =>
    split at h
    · split at h
      · obtain rfl := ok.inj h
        exact ⟨rfl, rfl, hx⟩
      · cases h
    · cases h

theorem bumpPayment_eq_some {p' : SupplierPayment}
    (h : bumpPayment db payment amount = .ok (some p')) :
    ∃ p ∈ db.payments, p'.payer = p.payer := by
  unfold bumpPayment at h
  split at h
  · cases h
  next p hfi =>
    split at h
    · cases h
    · split at h
      · obtain rfl := some.inj (ok.inj h)
        exact ⟨p, mem_of_find?_eq_some hfi, rfl⟩
      · cases h

private theorem insertPayable_eq_ok {si : SupplierInvoice} {p : Payable}
    (h : insertPayable db n si = .ok p) :
    p.item.New n (n + 1) := by
  unfold insertPayable at h
  split at h
  · cases h
  · split at h
    · obtain rfl := ok.inj h
      exact ⟨le_rfl, lt_succ_self n, rfl, rfl⟩
    · cases h

private theorem items_setPayable (p : Payable) : (db.apply (.setPayable p)).books.items
    = db.books.items.map fun x ↦ if x.id = p.item.id then p.item else x := by
  change (db.payables.map _).map _ = (db.payables.map _).map _
  rw [map_map, map_map]
  refine map_congr_left fun x _ ↦ ?_
  rw [comp_apply, comp_apply]
  exact apply_ite Payable.item (x.id = p.id) p x

theorem books_setPayable (hkeyed : db.books.Keyed n) {p p' : Payable} (hp : p ∈ db.payables)
    (hitem : p'.item = p.item) : (db.apply (.setPayable p')).books = db.books := by
  have hids : (db.payables.map (·.id)).Nodup := by
    have := hkeyed.item_ids
    rwa [PayablesDb.books, map_map] at this
  have hite : (db.payables.map fun x ↦ if x.id = p'.id then p' else x).map Payable.item
      = db.payables.map Payable.item := by
    refine map_update fun x hx hk ↦ ?_
    have hid : p'.id = p.id := congrArg Item.id hitem
    rw [inj_on_of_nodup_map hids hx hp (hk.trans hid), hitem]
  exact congrArg (fun items ↦ { db.books with items }) hite

/-- The amounts of a payment and its link are not in the books. -/
theorem books_setPayment (hkeyed : db.books.Keyed n) {p p' : SupplierPayment} (hp : p ∈ db.payments)
    (hpay : p'.payer = p.payer) : (db.apply (.setPayment p')).books = db.books := by
  have hids : (db.payments.map (·.id)).Nodup := by
    have := hkeyed.payer_ids
    rwa [PayablesDb.books, map_map] at this
  have hpae : (db.payments.map fun x ↦ if x.id = p'.id then p' else x).map SupplierPayment.payer
      = db.payments.map SupplierPayment.payer := by
    refine map_update fun x hx hk ↦ ?_
    have hid : p'.id = p.id := congrArg Prod.fst hpay
    rw [inj_on_of_nodup_map hids hx hp (hk.trans hid), hpay]
  exact congrArg (fun payers ↦ { db.books with payers }) hpae

section B

variable (h : b.Keyed n)

include h

theorem ApBooks.Keyed.mono (hn : n ≤ m) : b.Keyed m :=
  { h with
    items_lt := fun i hi ↦ (h.items_lt i hi).trans_le hn
    payers_lt := fun p hp ↦ (h.payers_lt p hp).trans_le hn
    lines_lt := fun l hl ↦ (h.lines_lt l hl).trans_le hn }

theorem ApBooks.Keyed.post (hlns : ∀ l ∈ lines, l.journalEntryId < n) :
    ({ b with lines := b.lines ++ lines } : ApBooks).Keyed n :=
  { h with lines_lt := fun l hl ↦ (mem_append.mp hl).elim (h.lines_lt l) (hlns l) }

theorem ApBooks.Keyed.opened_ids (hids : (items.map (·.id)).Nodup) (hnew : ∀ i ∈ items, i.New n m) :
    ((b.items ++ items).map (·.id)).Nodup := by
  refine nodup_key_append h.item_ids hids fun i hi ↦ find?_key_eq_none.mpr fun x hx ↦ ?_
  exact ((h.items_lt x hx).trans_le (hnew i hi).le_id).ne

theorem ApBooks.Keyed.opened (hnm : n ≤ m) (hids : (items.map (·.id)).Nodup)
    (hnew : ∀ i ∈ items, i.New n m) : ({ b with items := b.items ++ items } : ApBooks).Keyed m := by
  refine { h.mono hnm with item_ids := h.opened_ids hids hnew, items_lt := fun i hi ↦ ?_ }
  rcases mem_append.mp hi with hi | hi
  · exact (h.items_lt i hi).trans_le hnm
  · exact (hnew i hi).id_lt

theorem ApBooks.Keyed.payer (hid : n ≤ payment) (hid' : payment < m) :
    ({ b with payers := b.payers ++ [(payment, supplier)] } : ApBooks).Keyed m := by
  have hnm : n ≤ m := hid.trans hid'.le
  refine { h.mono hnm with payer_ids := ?_, payers_lt := fun p hp ↦ ?_ }
  · exact nodup_key_snoc h.payer_ids fun x hx ↦ ((h.payers_lt x hx).trans_le hid).ne
  · rcases mem_snoc.mp hp with hp | rfl
    · exact (h.payers_lt p hp).trans_le hnm
    · exact hid'

theorem ApBooks.Keyed.setItem {i i' : Item} (hi : i ∈ b.items) (hid : i'.id = i.id)
    (allocations : List PaymentAllocation) :
    ({ b with items := b.items.map fun x ↦ if x.id = i'.id then i' else x, allocations } :
      ApBooks).Keyed n := by
  refine { h with item_ids := nodup_key_update h.item_ids i', items_lt := fun x hx ↦ ?_ }
  rcases mem_update hx with rfl | ⟨hx, -⟩
  · exact hid ▸ h.items_lt i hi
  · exact h.items_lt x hx

end B

theorem Draw.id_eq {i i' : Item} (h : Draw payment al i i' a) : i'.id = i.id := by
  obtain ⟨left, settled, -, rfl⟩ := h.drawn
  rfl

theorem ApBooks.Keyed.draws (h : b.Keyed n) {as : List PaymentAllocation}
    (hdra : Draws payment b.items als as items) (allocations : List PaymentAllocation) :
    ({ b with items, allocations } : ApBooks).Keyed n := by
  suffices hall : ∀ {xs als as ys}, Draws payment xs als as ys →
      ({ b with items := xs } : ApBooks).Keyed n → ({ b with items := ys } : ApBooks).Keyed n from
    { hall hdra h with }
  clear hdra as
  intro xs als as ys hdra
  induction hdra with
  | nil items => exact id
  | cons hi hdraw _ ih => exact fun h ↦ ih (h.setItem hi hdraw.id_eq b.allocations)

end Statements

theorem PostedFor.lines_lt {n n' : ℕ} {groups : List (List JournalLine)}
    (h : Forall₂ (PostedFor chart n n') items groups) :
    ∀ l ∈ groups.flatten, l.journalEntryId < n' := by
  induction h with
  | nil => exact nofun
  | cons hpd _ ih =>
    obtain ⟨actor, today, p, e, -, hpst⟩ := hpd
    rw [List.flatten_cons]
    exact fun l hl ↦ (mem_append.mp hl).elim (hpst.lines_lt l) (ih l)

theorem PostedFor.mono {n n' m m' : ℕ} {i : Item} (h : PostedFor chart n n' i lines) (hn : m ≤ n)
    (hn' : n' ≤ m') : PostedFor chart m m' i lines := by
  obtain ⟨actor, today, p, e, hitem, hpst⟩ := h
  exact ⟨actor, today, p, e, hitem, hpst.mono hn hn'⟩

theorem ApStep.keyed {b' : ApBooks} {n n' : ℕ} {op : PayablesOp} (hb : b.Keyed n) (hn : n ≤ n')
    (h : ApStep chart b n n' op b') : b'.Keyed n' := by
  rcases h with _ | ⟨hids, hnew, hpd⟩ | ⟨-, hid, hid', hdra, hpd⟩
  · exact hb.mono hn
  · exact (hb.opened hn hids hnew).post (PostedFor.lines_lt hpd)
  · exact ((hb.draws hdra _).payer hid hid').post hpd.lines_lt

/-! ## The handlers on the books

`PayablesOp.step` puts them together; what is proved about runs is a case analysis of it. -/

section Rules

variable {env : Env} {db view : PayablesDb} {Q : PayablesResult → PayablesDb → ℕ → Prop} {m : ℕ}
  {next : Txn env}

theorem yields_link {α : Type} {q : Query} {write : α → Write} {next : Reply q → Txn env}
    {r : Option α} (hq : (exec env q db view m).1 = (loggedUpdate write r).1)
    (hr : ∀ a ∈ r, (view.apply (write a)).books = view.books)
    (hnx : ∀ reply view', view'.books = view.books → (next reply).Yields db Q view' (m + 1)) :
    (Prog.query (S := schema env) q next).Yields db Q view m := by
  refine yields_step fun ws reply hout ↦ hnx reply _ ?_
  have hout : exec env q db view m = (ws, reply) := hout
  rw [hout] at hq
  obtain rfl : ws = (loggedUpdate write r).1 := hq
  rcases r with _ | a
  · rfl
  · exact hr a rfl

theorem yields_journal {input : PostEntryInput} {k : PostedEntry → Txn env}
    (hkeyed : view.books.Keyed m)
    (hk : ∀ e lines m' view', Posts env.chart input m m' e lines →
      view'.books = { view.books with lines := view.books.lines ++ lines } →
      (k ⟨e, lines, Accounting.totalDebit lines⟩).Yields db Q view' m') :
    (post input now k).Yields db Q view m :=
  yields_post hkeyed.lines_lt fun e lines m' _ hpst hlns ↦
    hk e lines m' _ hpst (congrArg (fun lines ↦ { view.books with lines }) hlns)

theorem yields_insertPayables {next : List Payable → Txn env} {sis : List SupplierInvoice}
    {created : List Payable}
    (hnx : ∀ ps m' view', m ≤ m' → ((ps.map (·.item)).map (·.id)).Nodup →
      (∀ i ∈ ps.map (·.item), i.New m m') →
      view'.books = { view.books with items := view.books.items ++ ps.map (·.item) } →
      (next (created ++ ps)).Yields db Q view' m') :
    (insertPayables env next sis created).Yields db Q view m := by
  induction sis generalizing created view m with
  | nil =>
    have := hnx [] m view le_rfl nodup_nil nofun (by rw [map_nil, append_nil])
    rwa [append_nil] at this
  | cons si sis ih =>
    refine yields_step fun ws r hout ↦ ?_
    obtain ⟨e, -, rfl, rfl⟩ | ⟨p, hins, rfl, rfl⟩ := logged_eq hout
    · trivial
    have hp := insertPayable_eq_ok hins
    refine ih fun ps m' view' hm hids hnew hbk ↦ ?_
    rw [append_assoc]
    -- the ids of the payables that follow are drawn later
    have hfr : p.item.id ∉ (ps.map (·.item)).map (·.id) := fun hmem ↦ by
      obtain ⟨i, hi, hid⟩ := mem_map.mp hmem
      exact absurd (hid.symm.trans_ge (hnew i hi).le_id) (not_le.mpr hp.id_lt)
    refine hnx (p :: ps) m' view' ((le_succ m).trans hm) (nodup_cons.mpr ⟨hfr, hids⟩)
      (forall_mem_cons.mpr ⟨{ hp with id_lt := hp.id_lt.trans_le hm }, fun i hi ↦ ?_⟩) ?_
    · exact { hnew i hi with le_id := (le_succ m).trans (hnew i hi).le_id }
    · rw [hbk]
      change ({ view.books with items := (view.payables ++ [p]).map (·.item) ++ _ } : ApBooks) = _
      rw [map_append, append_assoc]
      rfl

theorem yields_postPayables {actor : Uuid} {today : ℤ} {ps : List Payable}
    (hkeyed : view.books.Keyed m) (hnx : ∀ groups m' view', m ≤ m' →
      Forall₂ (PostedFor env.chart m m') (ps.map (·.item)) groups →
      view'.books = { view.books with lines := view.books.lines ++ groups.flatten } →
      next.Yields db Q view' m') :
    (postPayables env actor today now next ps).Yields db Q view m := by
  induction ps generalizing view m with
  | nil => exact hnx [] m view le_rfl .nil (by rw [List.flatten_nil, append_nil])
  | cons p ps ih =>
    refine yields_journal hkeyed fun e lines m' view' hpst hbk ↦ ?_
    have hm : m ≤ m' := hpst.le_id.trans hpst.id_lt.le
    have hkd' : view'.books.Keyed m' := by
      rw [hbk]
      exact (hkeyed.mono hm).post hpst.lines_lt
    refine yields_link rfl (fun p' hp' ↦ ?_) fun r view'' hlink ↦ ?_
    · obtain ⟨x, hx, rfl⟩ := map_eq_some_iff.mp hp'
      exact books_setPayable hkd' (mem_of_find?_eq_some hx) rfl
    refine ih (hlink ▸ hkd'.mono (le_succ m')) fun groups m'' view3 hm' hgro hbk' ↦ ?_
    have hle : m' ≤ m'' := (le_succ m').trans hm'
    refine hnx (lines :: groups) m'' view3 (hm.trans hle)
      (.cons ⟨actor, today, p, e, rfl, hpst.mono le_rfl hle⟩ (hgro.imp fun _ _ h ↦ ?_)) ?_
    · exact h.mono (hm.trans (le_succ m')) le_rfl
    · rw [hbk', hlink, hbk, List.flatten_cons, append_assoc]

/-- One allocation: the draw, the row that records it and the total of the payment. -/
theorem yields_allocation (hkeyed : view.books.Keyed m)
    (hnx : ∀ i i' a m' view', m ≤ m' → i ∈ view.books.items → Draw payment al i i' a →
      view'.books = { view.books with
        items := view.books.items.map fun x ↦ if x.id = i'.id then i' else x
        allocations := view.books.allocations ++ [a] } → next.Yields db Q view' m') :
    (Prog.query (S := schema env) (.applyPayment al.payableId al.amount)
      (answerApply env payment al next)).Yields db Q view m := by
  refine yields_step fun ws r hout ↦ ?_
  obtain ⟨e, -, rfl, rfl⟩ | ⟨-, rfl, rfl⟩ | ⟨p', happ, rfl, rfl⟩ := loggedRow_eq hout
  · trivial
  · trivial
  obtain ⟨p, hp, hid, hle, hdr⟩ := applyPayment_eq_some happ
  refine yields_step fun ws r hout ↦ ?_
  obtain ⟨e, -, rfl, rfl⟩ | ⟨a, hins, rfl, rfl⟩ := logged_eq hout
  · cases e <;> trivial
  obtain ⟨hpay, hpaa, hamt⟩ := insertAllocation_eq_ok hins
  have hdraw : Draw payment al p.item p'.item a :=
    ⟨hpay, hpaa.trans hid.symm, hid, hle, hamt, hdr⟩
  have hi : p.item ∈ view.books.items := mem_map_of_mem hp
  have hbk : ((view.apply (.setPayable p')).apply (.insertAllocation a)).books
      = { view.books with
          items := view.books.items.map fun x ↦ if x.id = p'.item.id then p'.item else x
          allocations := view.books.allocations ++ [a] } := by
    rw [← items_setPayable]
    rfl
  have hkd' : ((view.apply (.setPayable p')).apply (.insertAllocation a)).books.Keyed m := by
    rw [hbk]
    exact hkeyed.setItem hi hdraw.id_eq _
  -- the total of the payment is not in the books
  refine yields_step fun ws r hout ↦ ?_
  obtain ⟨e, -, rfl, rfl⟩ | ⟨-, rfl, rfl⟩ | ⟨q', hbump, rfl, rfl⟩ := loggedRow_eq hout
  · trivial
  · exact hnx p.item p'.item a _ _ (by omega) hi hdraw hbk
  · obtain ⟨q, hq, hpae⟩ := bumpPayment_eq_some hbump
    exact hnx p.item p'.item a _ _ (by omega) hi hdraw
      ((books_setPayment hkd' hq hpae).trans hbk)

theorem yields_allocate (hkeyed : view.books.Keyed m)
    (hnx : ∀ as items m' view', m ≤ m' → Draws payment view.books.items als as items →
      view'.books = { view.books with items, allocations := view.books.allocations ++ as } →
      next.Yields db Q view' m') : (allocate env payment next als).Yields db Q view m := by
  induction als generalizing view m with
  | nil => exact hnx [] _ m view le_rfl (.nil _) (by rw [append_nil])
  | cons al als ih =>
    unfold allocate
    split
    · trivial
    rw [yields_lock]
    refine yields_allocation hkeyed fun i i' a m' view' hm hi hdraw hbk ↦ ?_
    refine ih (hbk ▸ (hkeyed.setItem hi hdraw.id_eq _).mono hm)
      fun as items m'' view'' hm' hdra hbk' ↦ ?_
    refine hnx (a :: as) items m'' view'' (hm.trans hm') (.cons hi hdraw ?_) ?_
    · rwa [hbk] at hdra
    · rw [hbk', hbk, append_assoc]
      rfl

/-- What follows the allocations: the amount of the payment, its entry and the link to it. -/
theorem yields_finishPayment (hkeyed : view.books.Keyed m)
    (hQ : ∀ a e lines m' db', Posts env.chart (paymentEntry req payment date) m m' e lines →
      db'.books = { view.books with lines := view.books.lines ++ lines } → Q a db' m') :
    (finishPayment env req payment date).Yields db Q view m := by
  refine yields_link rfl (fun p' hp' ↦ ?_) fun r view' hbk ↦ ?_
  · obtain ⟨p, hp, rfl⟩ := map_eq_some_iff.mp hp'
    exact books_setPayment hkeyed (mem_of_find?_eq_some hp) rfl
  have hkd' : view'.books.Keyed (m + 1) := by
    rw [hbk]
    exact hkeyed.mono (le_succ m)
  refine yields_journal hkd' fun e lines m' view'' hpst hpd ↦ ?_
  have hkd'' : view''.books.Keyed m' := by
    rw [hpd]
    exact (hkd'.mono (hpst.le_id.trans hpst.id_lt.le)).post hpst.lines_lt
  refine yields_link rfl (fun p' hp' ↦ ?_) fun r view3 hlink ↦ ?_
  · obtain ⟨p, hp, rfl⟩ := map_eq_some_iff.mp hp'
    exact books_setPayment hkd'' (mem_of_find?_eq_some hp) rfl
  refine yields_commit (hQ _ e lines _ _ (hpst.mono (le_succ m) (by omega)) ?_)
  rw [hlink, hpd, hbk]

end Rules

section Step

variable {env : Env} {db : PayablesDb} {n : ℕ} (hkeyed : db.books.Keyed n)

/-- The outcome of a request, as a step on the books. -/
def Stepped (env : Env) (db : PayablesDb) (n : ℕ) (op : PayablesOp)
    (out : Except HttpError PayablesResult × PayablesDb × ℕ) : Prop :=
  ApStep env.chart db.books n out.2.2 op out.2.1.books

/-- What an accepted request yields is a step on the books. -/
def Steps (env : Env) (db : PayablesDb) (n : ℕ) (op : PayablesOp) (p : Txn env)
    (view : PayablesDb) (m : ℕ) : Prop :=
  p.Yields db (fun _ (db' : PayablesDb) n' ↦ ApStep env.chart db.books n n' op db'.books) view m

include hkeyed

theorem steps_handleImportPayables (actor : Uuid) (invoices : List SupplierInvoice)
    (today now : ℤ) :
    Steps env db n (.importPayables actor invoices today now)
      (handleImportPayables env actor invoices today now) db n := by
  refine yields_read rfl fun sis ↦ ?_
  refine yields_insertPayables fun ps m view hm hids hnew hbk ↦ ?_
  have hopd := (hkeyed.mono (le_succ n)).opened hm hids hnew
  rw [← hbk] at hopd
  refine yields_postPayables hopd fun groups m' view' hm' hgro hbk' ↦ ?_
  refine yields_commit ?_
  rw [hbk', hbk]
  refine .imported hids (fun i hi ↦ ?_) (hgro.imp fun i lines h ↦ ?_)
  · exact { hnew i hi with
      le_id := (le_succ n).trans (hnew i hi).le_id
      id_lt := (hnew i hi).id_lt.trans_le (hm'.trans (le_succ m')) }
  · exact h.mono ((le_succ n).trans hm) (le_succ m')

private theorem steps_allocate {view : PayablesDb} (hsup : req.supplierId = some supplier)
    (hhea : view.books = { db.books with payers := db.books.payers ++ [(n, supplier)] }) :
    Steps env db n (.recordPayment req)
      (allocate env n (finishPayment env req n date) req.allocations) view (n + 1) := by
  have hkd1 : view.books.Keyed (n + 1) := by
    rw [hhea]
    exact hkeyed.payer le_rfl (lt_succ_self n)
  refine yields_allocate hkd1 fun as items m view' hm hdra hdr ↦ ?_
  have hkd2 : view'.books.Keyed m := by
    rw [hdr]
    exact (hkd1.draws hdra _).mono hm
  refine yields_finishPayment hkd2 fun a e lines m' db' hpst hpd ↦ ?_
  rw [hhea] at hdra
  rw [hpd, hdr, hhea]
  exact .paid hsup le_rfl (hm.trans (hpst.le_id.trans hpst.id_lt.le)) hdra
    (hpst.mono ((le_succ n).trans hm) le_rfl)

theorem steps_handleRecordSupplierPayment (req : PaymentRequest) :
    Steps env db n (.recordPayment req) (handleRecordSupplierPayment env req) db n := by
  unfold handleRecordSupplierPayment
  split
  · trivial
  next supplier hsup =>
  split
  · trivial
  split
  · trivial
  next date _ =>
  refine yields_step fun ws p hout ↦ ?_
  cases hout
  exact steps_allocate hkeyed hsup (congrArg (fun payers ↦ { db.books with payers }) map_append)

theorem PayablesOp.step (op : PayablesOp) : Stepped env db n op ((op.prog env).alone db [] n) := by
  refine alone_of_yields (S := schema env) (R := Stepped env db n op) (fun _ _ _ ↦ .refused op)
    (Prog.Yields.imp (fun _ _ _ h _ ↦ h) (?_ : Steps env db n op (op.prog env) db n))
  rcases op with ⟨actor, invoices, today, now⟩ | req
  · exact steps_handleImportPayables hkeyed actor invoices today now
  · exact steps_handleRecordSupplierPayment hkeyed req

end Step

end FuelGrid.Payables
