import FuelGrid.Payables.Effects

/-!
# The supplier sub-ledger

For each supplier, what was invoiced less what was paid should be what is outstanding
(`SupplierLaw`). Two things can break it. A payment is recorded for a supplier, but `ApplyPayment`
takes any payable of the tenant, so that the payment of one supplier can settle the invoices of
another. And, as for customers, an allocation is subtracted as the text it is and recorded rounded
to cents.
-/

namespace FuelGrid.Payables

open Sql

namespace PayablesDb

variable (db : PayablesDb) (supplier : Uuid)

def payablesOf : List Payable := db.payables.filter (·.supplierId = supplier)

/-- The allocations of the payments that were recorded for a supplier. -/
def allocationsFor : List PaymentAllocation :=
  db.allocations.filter fun a ↦
    ∃ p ∈ db.payments, p.id = a.supplierPaymentId ∧ p.supplierId = supplier

end PayablesDb

/-- What the sub-ledger should satisfy. -/
structure SupplierLaw (db : PayablesDb) : Prop where
  outstanding : ∀ supplier, ((db.payablesOf supplier).map (·.amount)).sum
      - ((db.allocationsFor supplier).map (·.amount)).sum
    = ((db.payablesOf supplier).map (·.outstandingAmount)).sum
  bounds : ∀ p ∈ db.payables, 0 ≤ p.outstandingAmount ∧ p.outstandingAmount ≤ p.amount
  paid_iff : ∀ p ∈ db.payables, p.status = .paid ↔ p.outstandingAmount = 0

/-- The allocations of a payment request are of whole cents. -/
def PayablesOp.WholeCents : PayablesOp → Prop
  | .importPayables _ _ _ _ => True
  | .recordPayment req => ∀ al ∈ req.allocations, al.amount.Whole 2

instance : DecidablePred PayablesOp.WholeCents
  | .importPayables _ _ _ _ => .isTrue trivial
  | .recordPayment req => inferInstanceAs (Decidable (∀ al ∈ req.allocations, al.amount.Whole 2))

/-- A payment request allocates to payables of its supplier only. -/
def PayablesOp.OwnPayables (db : PayablesDb) : PayablesOp → Prop
  | .importPayables _ _ _ _ => True
  | .recordPayment req => ∀ al ∈ req.allocations, ∀ p ∈ db.payables, p.id = al.payableId →
      req.supplierId = some p.supplierId

instance (db : PayablesDb) : DecidablePred (PayablesOp.OwnPayables db)
  | .importPayables _ _ _ _ => .isTrue trivial
  | .recordPayment req => inferInstanceAs (Decidable (∀ al ∈ req.allocations, ∀ p ∈ db.payables,
      p.id = al.payableId → req.supplierId = some p.supplierId))

/-! ## Payables as open items

The law is the sum over a supplier's payables of the law of open items (`Conserved`), which does not
look at suppliers and needs the whole cents only (`ApStep.conserved`). -/

def itemView : ItemView Item Uuid where
  id := (·.id)
  amount := (·.amount)
  outstanding := (·.outstanding)
  paid i := i.status = .paid

def PaymentAllocation.part (a : PaymentAllocation) : Uuid × Money := (a.payableId, a.amount)

/-- The payables of the books satisfy the law of open items. -/
def ApBooks.Conserved (b : ApBooks) : Prop :=
  Sql.Conserved itemView b.items (b.allocations.map (·.part))

variable {a : PaymentAllocation} {op : PayablesOp} {db : PayablesDb}

section Step

variable {chart : Chart} {n n' : ℕ} {i : Item} {lines : List JournalLine}
  {items : List Item} {live : List (Uuid × Money)} {payment : Uuid}

theorem PostedFor.lines_eq (h : PostedFor chart n n' i lines) :
    ∃ d c, lines = [d, c] ∧ chart.systemAccount "inventory" = some d.accountId ∧
      chart.systemAccount "accounts_payable" = some c.accountId ∧
      d.debit = i.amount ∧ d.credit = 0 ∧ c.debit = 0 ∧ c.credit = i.amount := by
  obtain ⟨actor, today, p, e, rfl, hpst⟩ := h
  exact Accounting.PostedLine.pair hpst.posted

theorem PostedFor.amounts_pos {groups : List (List JournalLine)}
    (h : Forall₂ (PostedFor chart n n') items groups) : ∀ i ∈ items, 0 < i.amount := by
  induction h with
  | nil => exact nofun
  | cons hpd _ ih =>
    -- `PostEntry` refuses an entry that is all zeros
    refine forall_mem_cons.mpr ⟨?_, ih⟩
    obtain ⟨d, c, rfl, -, -, hd, -, hc, -⟩ := hpd.lines_eq
    obtain ⟨actor, today, p, e, -, hpst⟩ := hpd
    have hpos : 0 < d.debit + (c.debit + 0) := hpst.positive
    rwa [hd, hc, add_zero, add_zero] at hpos

theorem Draw.conserved {al : AllocationRequest} {i' : Item} (h : Draw payment al i i' a)
    (hi : i ∈ items) (hwh : al.amount.Whole 2) (hcons : Sql.Conserved itemView items live) :
    Sql.Conserved itemView (items.map fun x ↦ if x.id = i'.id then i' else x) (a.part :: live) := by
  obtain ⟨left, settled, hdr, hi'⟩ := h.drawn
  obtain ⟨hleft, hz⟩ := Numeric.drawn_of_whole hwh h.recorded hdr
  have hpaid : i'.status = .paid ↔ i'.outstanding ≤ 0 := by
    rw [hi', ← hz]
    dsimp only
    split
    next h => exact iff_of_true rfl h
    next h => exact iff_of_false (by decide) h
  have hpart : a.part = (itemView.id i, a.amount) := Prod.ext h.payable rfl
  have hle : a.amount ≤ i.outstanding := Numeric.store_le h.le h.recorded
  rw [hpart]
  refine hcons.draw hi h.id_eq ?_ ?_ hpaid a.amount_pos hle
  · rw [hi']
    rfl
  · rw [hi']
    exact hleft

theorem Draws.conserved {items' : List Item} {als : List AllocationRequest}
    {as : List PaymentAllocation} (h : Draws payment items als as items')
    (hwh : ∀ al ∈ als, al.amount.Whole 2) (hcons : Sql.Conserved itemView items live) :
    Sql.Conserved itemView items' (as.map (·.part) ++ live) := by
  induction h generalizing live with
  | nil items => exact hcons
  | cons hi hdraw _ ih =>
    rw [forall_mem_cons] at hwh
    exact (ih hwh.2 (hdraw.conserved hi hwh.1 hcons)).perm List.perm_middle

theorem ApStep.conserved {b b' : ApBooks} (h : ApStep chart b n n' op b') (hkd : b.Keyed n)
    (hwh : op.WholeCents) (hb : b.Conserved) : b'.Conserved := by
  rcases h with _ | ⟨hids, hnew, hpd⟩ | ⟨-, -, -, hdra, -⟩
  · exact hb
  · refine hb.append (hkd.opened_ids hids hnew) (fun i hi ↦ (hnew i hi).outstanding)
      (PostedFor.amounts_pos hpd) fun i hi ↦ ?_
    change i.status ≠ .paid
    rw [(hnew i hi).status]
    decide
  · rw [ApBooks.Conserved, map_append]
    exact (hdra.conserved hwh hb).perm List.perm_append_comm

end Step

/-! ## Payments of a supplier -/

/-- Every allocation is to a payable of the supplier that its payment was recorded for. -/
def ApBooks.Own (b : ApBooks) : Prop :=
  ∀ a ∈ b.allocations, ∀ i ∈ b.items, i.id = a.payableId →
    (a.supplierPaymentId, i.supplierId) ∈ b.payers

section Own

variable {payment : Uuid} {items items' : List Item} {als : List AllocationRequest}
  {as : List PaymentAllocation}

/-- Draws change what is outstanding of the items and their status only. -/
theorem Draws.map_eq {β : Type} {f : Item → β}
    (hf : ∀ (i : Item) outstanding status, f { i with outstanding, status } = f i)
    (h : Draws payment items als as items') (hids : (items.map (·.id)).Nodup) :
    items'.map f = items.map f := by
  induction h with
  | nil items => rfl
  | @cons items items' al als a as i i' hi hdraw _ ih =>
    refine (ih (nodup_key_update hids _)).trans (map_update fun x hx hid ↦ ?_)
    obtain rfl : x = i := inj_on_of_nodup_map hids hx hi (hid.trans hdraw.id_eq)
    obtain ⟨left, settled, -, rfl⟩ := hdraw.drawn
    exact (hf x left _).symm

theorem Draws.allocations (h : Draws payment items als as items') (ha : a ∈ as) :
    a.supplierPaymentId = payment ∧ ∃ al ∈ als, a.payableId = al.payableId := by
  induction h with
  | nil items => cases ha
  | cons hi hdraw _ ih =>
    rcases mem_cons.mp ha with rfl | ha
    · exact ⟨hdraw.payment, _, mem_cons_self, hdraw.payable.trans hdraw.id⟩
    · obtain ⟨hpay, al, hal, hid⟩ := ih ha
      exact ⟨hpay, al, mem_cons_of_mem _ hal, hid⟩

end Own

theorem ApStep.own {chart : Chart} {b' : ApBooks} {n n' : ℕ}
    (h : ApStep chart db.books n n' op b') (hkd : db.books.Keyed n) (hcons : db.books.Conserved)
    (hown : op.OwnPayables db) (hb : db.books.Own) : b'.Own := by
  rcases h with _ | ⟨hids, hnew, hpd⟩ | ⟨hsup, -, -, hdra, -⟩
  · exact hb
  · intro a ha i hi hid
    rcases mem_append.mp hi with hi | hi
    · exact hb a ha i hi hid
    · -- the payable of an allocation was there before
      obtain ⟨x, hx, hxid⟩ := mem_map.mp (hcons.known a.part (mem_map_of_mem ha))
      have hxid : x.id = a.payableId := hxid
      have hlt : i.id < n := (hid.trans hxid.symm).trans_lt (hkd.items_lt x hx)
      exact absurd (hnew i hi).le_id (not_le.mpr hlt)
  · intro a ha i hi hid
    have hmem := mem_map_of_mem (f := fun i : Item ↦ (i.id, i.supplierId)) hi
    rw [hdra.map_eq (fun _ _ _ ↦ rfl) hkd.item_ids] at hmem
    obtain ⟨x, hx, hxi⟩ := mem_map.mp hmem
    obtain ⟨hxid, hxs⟩ := Prod.mk.inj hxi
    rcases mem_append.mp ha with ha | ha
    · have := hb a ha x hx (hxid.trans hid)
      rw [hxs] at this
      exact mem_append_left _ this
    · obtain ⟨hpay, al, hal, hpaa⟩ := hdra.allocations ha
      obtain ⟨p, hp, rfl⟩ := mem_map.mp hx
      have hs := hown al hal p hp (hxid.trans (hid.trans hpaa))
      refine mem_append_right _ (mem_singleton.mpr ?_)
      rw [hpay, ← hxs, ← some.inj (hs.symm.trans hsup)]
      rfl

/-! ## Runs

The law holds in every run whose payments allocate whole cents to payables of their own supplier
(`supplierLaw_of_ownWholeCents`). -/

/-- The payables and the payments of a tenant agree: ids are unique, the law of open items holds,
and each payment is for its supplier. -/
structure Books (db : PayablesDb) (n : ℕ) : Prop where
  keyed : db.books.Keyed n
  conserved : db.books.Conserved
  own : db.books.Own

theorem books_of_empty {n : ℕ} (hpay : db.payables = []) (hpays : db.payments = [])
    (hall : db.allocations = []) (hlns : ∀ l ∈ db.ledger.lines, l.journalEntryId < n) :
    Books db n := by
  have hbk : db.books = ⟨[], [], [], db.ledger.lines⟩ := by
    rw [PayablesDb.books, hpay, hpays, hall]
    rfl
  refine ⟨hbk ▸ ⟨nodup_nil, ?_, nodup_nil, ?_, hlns⟩, hbk ▸ ?_, hbk ▸ ?_⟩
  · exact fun i hi ↦ absurd hi not_mem_nil
  · exact fun p hp ↦ absurd hp not_mem_nil
  · refine ⟨nodup_nil, ?_, ?_, ?_, ?_, ?_, ?_⟩ <;> exact fun x hx ↦ absurd hx not_mem_nil
  · exact fun a ha ↦ absurd ha not_mem_nil

/-- The allocations of a supplier's payments are those to the supplier's payables. -/
theorem Books.allocationsFor_eq {n : ℕ} (h : Books db n) (supplier : Uuid) :
    (db.books.allocations.map (·.part)).filter
        (fun a ↦ a.1 ∈ (db.books.items.filter (·.supplierId = supplier)).map itemView.id)
      = (db.allocationsFor supplier).map (·.part) := by
  rw [filter_map, PayablesDb.allocationsFor]
  refine congrArg (List.map _) (filter_congr fun a ha ↦ decide_eq_decide.mpr ?_)
  obtain ⟨i, hi, hid⟩ := mem_map.mp (h.conserved.known a.part (mem_map_of_mem ha))
  constructor
  · intro hmem
    obtain ⟨x, hx, hxid⟩ := mem_map.mp hmem
    obtain ⟨hx, hxs⟩ := mem_filter.mp hx
    obtain ⟨p, hp, hpay⟩ := mem_map.mp (h.own a ha x hx hxid)
    obtain ⟨hpid, hps⟩ := Prod.mk.inj hpay
    exact ⟨p, hp, hpid, hps.trans (of_decide_eq_true hxs)⟩
  · rintro ⟨p, hp, hpid, hps⟩
    -- the payment was recorded for one supplier, which is that of the payable
    have hpay : p.payer ∈ db.books.payers := mem_map_of_mem hp
    have heq := inj_on_of_nodup_map h.keyed.payer_ids (h.own a ha i hi hid) hpay hpid.symm
    have his : i.supplierId = supplier := (congrArg Prod.snd heq).trans hps
    exact mem_map.mpr ⟨i, mem_filter.mpr ⟨hi, decide_eq_true his⟩, hid⟩

/-- The law per supplier is the law of open items, summed over the payables of the supplier. -/
theorem Books.supplierLaw {n : ℕ} (h : Books db n) : SupplierLaw db where
  outstanding supplier := by
    have hsum := h.conserved.sum_outstanding (·.supplierId = supplier)
    have hite : db.books.items.filter (·.supplierId = supplier)
      = (db.payablesOf supplier).map (·.item) := filter_map
    rw [h.allocationsFor_eq, hite, map_map, map_map, map_map] at hsum
    rw [sub_eq_add_neg]
    exact hsum.symm
  bounds p hp := ⟨h.conserved.nonneg p.item (mem_map_of_mem hp),
    h.conserved.le_amount p.item (mem_map_of_mem hp)⟩
  paid_iff p hp := h.conserved.paid_iff p.item (mem_map_of_mem hp)

theorem PayablesOp.books {env : Env} {n : ℕ} (h : Books db n) (hwh : op.WholeCents)
    (hown : op.OwnPayables db) :
    Books ((op.prog env).alone db [] n).2.1 ((op.prog env).alone db [] n).2.2 := by
  have hst : Stepped env db n op ((op.prog env).alone db [] n) := op.step h.keyed
  exact ⟨hst.keyed h.keyed (Prog.le_alone_stamp _ _ _ _), hst.conserved h.keyed hwh h.conserved,
    hst.own h.keyed h.conserved hown h.own⟩

/-- In every run whose payments allocate whole cents to payables of their own supplier, the
sub-ledger of each supplier keeps its law. -/
theorem supplierLaw_of_ownWholeCents {env : Env} {s₀ s : PayablesDb × ℕ} (hbooks : Books s₀.1 s₀.2)
    (hrun : Runs (S := schema env) (PayablesOp.prog env)
      (fun db op ↦ op.WholeCents ∧ op.OwnPayables db) s₀ s) :
    SupplierLaw s.1 := by
  have hs : Books s.1 s.2 := Runs.invariant (I := fun s : PayablesDb × ℕ ↦ Books s.1 s.2) hrun
    hbooks fun s op hs hop ↦ op.books hs hop.1 hop.2
  exact hs.supplierLaw

/-- Bank, inventory and payables. -/
def Env.small : Env where
  positive
    | .nan => true
    | .infinity negative => !negative
    | .finite x => 0 < x
  chart := {
    accounts := [
      ⟨1, "1100", "Bank", .asset, .debit, some "bank", .active⟩,
      ⟨2, "1300", "Inventory", .asset, .debit, some "inventory", .active⟩,
      ⟨3, "2000", "Payables", .liability, .credit, some "accounts_payable", .active⟩]
    ids_nodup := by decide }

/-- Two suppliers and an open period, nothing imported yet. -/
def nothingImported : PayablesDb where
  suppliers := [1, 2]
  stations := [1]
  payables := []
  payments := []
  allocations := []
  ledger := { periods := [Accounting.smallPeriod .opened], entries := [], lines := [] }

def importOne : PayablesOp := .importPayables 9 [⟨50, 1, 1, .approved, 3, 100, by decide⟩] 3 3

def payPart (supplier payable : Uuid) (amount : ℚ) (source : String) : PayablesOp :=
  .recordPayment {
  actor := 9
  supplierId := some supplier
  paymentDate := some 4
  method := "transfer"
  sourceAccountKey := source
  allocations := [⟨payable, .finite amount⟩]
  now := 4 }

/-- A payment recorded for supplier 2 settles a payable of supplier 1. -/
theorem not_supplierLaw_of_other_supplier :
    ∃ s, Runs (S := schema .small) (PayablesOp.prog .small) (fun _ op ↦ op.WholeCents)
      (nothingImported, 100) s ∧ ¬SupplierLaw s.1 := by
  refine exists_and_imp (fun s ↦ ((s.1.payablesOf 1).map (·.amount)).sum
      - ((s.1.allocationsFor 1).map (·.amount)).sum
      ≠ ((s.1.payablesOf 1).map (·.outstandingAmount)).sum)
    (exists_of_runAll [importOne, payPart 2 101 1 ""] (by decide +kernel)) ?_
  rintro _ _ hne
  exact fun h ↦ hne (h.outstanding 1)

/-- A payment of 0.40 on a payable of 1.00. -/
theorem supplierLaw_of_ownWholeCents_part :
    ∃ s, Runs (S := schema .small) (PayablesOp.prog .small)
      (fun db op ↦ op.WholeCents ∧ op.OwnPayables db) (nothingImported, 100) s ∧
        s.1.allocations ≠ [] ∧ SupplierLaw s.1 := by
  refine exists_and_imp (fun s ↦ s.1.allocations ≠ [])
    (exists_of_runAll [importOne, payPart 1 101 0.4 ""] (by decide +kernel)) ?_
  rintro _ hs hpaid
  have hbk : Books nothingImported 100 :=
    books_of_empty rfl rfl rfl nofun
  exact ⟨hpaid, supplierLaw_of_ownWholeCents hbk hs⟩

end FuelGrid.Payables
