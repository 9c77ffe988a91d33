import Mathlib.Algebra.Order.BigOperators.Group.List
import FuelGrid.Procurement.Effects

/-!
# The amount of an invoice

An invoice line has litres, a unit price and an amount. The match compares the litres with what was
delivered or ordered and the unit price with the one of the purchase order, each within a tolerance.
The amount is what is paid, and it is not compared with anything: a request can state it, and if it
does not, it is computed from litres and price before they are rounded to the scale of their
columns, and then rounded itself. An approved invoice without any discrepancy can therefore be of
any amount.
-/

namespace FuelGrid.Procurement

open Sql

/-- The most that a line can come to, if its litres and its price pass the match. -/
def lineBound (db : ProcurementDb) (il : SupplierInvoiceLine) : ℚ :=
  match db.orderLine il.purchaseOrderId il.poLineId with
  | none => 0
  | some pol =>
    (litres (referenceLitres db il pol) + quantityTolerance (litres (referenceLitres db il pol))) *
      (money pol.unitPrice + priceTolerance (money pol.unitPrice))

/-- The amounts of the invoice are within what was ordered or received. -/
structure SupplierInvoice.Within (db : ProcurementDb) (inv : SupplierInvoice) : Prop where
  lines : ∀ il ∈ db.linesOf inv.id, money il.amount ≤ lineBound db il
  total : money inv.totalAmount ≤ ((db.linesOf inv.id).map (lineBound db)).sum

/-- Approved invoices on which no discrepancy was ever raised are within the match. -/
def MoneyLaw (db : ProcurementDb) : Prop :=
  ∀ inv ∈ db.invoices, inv.status = .approved →
    (∀ d ∈ db.discrepancies, d.supplierInvoiceId ≠ inv.id) → inv.Within db

/-- The amount of the line, in cents, is not above the product of its litres and its price as they
are stored. -/
def SupplierInvoiceLineInput.Covered (ln : SupplierInvoiceLineInput) : Prop :=
  ∀ l ∈ store 14 3 ln.invoicedLitres, ∀ p ∈ store 14 2 ln.unitPrice, ∀ a ∈ store 14 2 ln.lineAmount,
    money a ≤ litres l * money p
  deriving Decidable

def ProcurementOp.Covered (env : Env) : ProcurementOp → Prop
  | .record req =>
    ∀ lns ∈ req.lines.mapM (RecordInvoiceLineRequest.input env), ∀ ln ∈ lns, ln.Covered
  | .approve _ _ | .resolve _ _ _ => True

instance (env : Env) : DecidablePred (ProcurementOp.Covered env)
  | .record req => inferInstanceAs (Decidable
      (∀ lns ∈ req.lines.mapM (RecordInvoiceLineRequest.input env), ∀ ln ∈ lns, ln.Covered))
  | .approve _ _ | .resolve _ _ _ => .isTrue trivial

/-! ## The invariant

Where no amount is above the product of the litres and the price that are stored, the amounts are
within what the match allows (`moneyLaw_of_covered`). -/

/-- The law for every invoice, whatever its status. -/
structure MoneyBooks (db : ProcurementDb) (n : ℕ) : Prop where
  booked : Booked db n
  total : ∀ inv ∈ db.invoices, inv.totalAmount = ((db.linesOf inv.id).map (·.amount)).sum
  within : ∀ inv ∈ db.invoices, (∀ d ∈ db.discrepancies, d.supplierInvoiceId ≠ inv.id) →
    ∀ il ∈ db.linesOf inv.id, money il.amount ≤ lineBound db il

private theorem money_sum (ls : List ℤ) : money ls.sum = (ls.map money).sum := by
  induction ls with
  | nil => exact zero_div _
  | cons l ls ih =>
    rw [sum_cons, map_cons, sum_cons, ← ih]
    simp only [money, Int.cast_add, add_div]

variable {db : ProcurementDb} {n : ℕ}

theorem MoneyBooks.law (h : MoneyBooks db n) : MoneyLaw db := by
  intro inv hinv _ hcle
  have hlns := h.within inv hinv hcle
  refine ⟨hlns, ?_⟩
  rw [h.total inv hinv, money_sum, map_map]
  exact List.sum_le_sum hlns

/-- A line that passes the match and is covered is within the bound. -/
theorem money_le_lineBound {invoice order : Uuid} {ln : SupplierInvoiceLineInput}
    {il : SupplierInvoiceLine} (hil : Billed db invoice order ln il) (hcov : ln.Covered)
    (hqua : quantityMismatch db il = none) (hpri : priceMismatch db il = none) :
    money il.amount ≤ lineBound db il := by
  obtain ⟨pol, hpol⟩ := isSome_iff_exists.mp hil.orderLine
  rw [← hil.order] at hpol
  have hlit := litres_le_of_quantityMismatch hpol hqua
  have hunit : money il.unitPrice ≤ money pol.unitPrice + priceTolerance (money pol.unitPrice) := by
    have h := Option.bind_eq_none_iff.mp hpri pol hpol
    split at h
    · cases h
    next hle =>
      have := le_of_abs_le (not_lt.mp hle)
      linarith
  have hl : 0 ≤ litres il.invoicedLitres := by
    have : (0 : ℚ) ≤ il.invoicedLitres := by exact_mod_cast il.checks.1.le
    unfold litres
    positivity
  have hp : 0 ≤ money il.unitPrice := by
    have : (0 : ℚ) ≤ il.unitPrice := by exact_mod_cast il.checks.2.1
    unfold money
    positivity
  unfold lineBound
  rw [hpol]
  calc money il.amount ≤ litres il.invoicedLitres * money il.unitPrice :=
        hcov _ hil.litres _ hil.price _ hil.amount
    _ ≤ _ := mul_le_mul hlit hunit hp (hl.trans hlit)

theorem MoneyBooks.kept {db' : ProcurementDb} (h : MoneyBooks db n) (hsm : SameBills db db') :
    MoneyBooks db' n := by
  have hlns : ∀ i, db'.linesOf i = db.linesOf i := fun i ↦ by
    unfold ProcurementDb.linesOf
    rw [hsm.lines]
  have hbou : ∀ il, lineBound db' il = lineBound db il := fun il ↦ by
    unfold lineBound referenceLitres ProcurementDb.orderLine ProcurementDb.delivery
    rw [hsm.orderLines, hsm.deliveries]
  refine ⟨h.booked.kept hsm, fun inv hinv ↦ ?_, fun inv hinv hcle il hil ↦ ?_⟩
  · obtain ⟨inv0, hinv0, hid, htot⟩ := hsm.mem_invoices hinv
    rw [hlns, ← hid, ← htot]
    exact h.total inv0 hinv0
  · obtain ⟨inv0, hinv0, hid, -⟩ := hsm.mem_invoices hinv
    rw [hlns, ← hid] at hil
    rw [hbou]
    refine h.within inv0 hinv0 (fun d hd ↦ ?_) il hil
    obtain ⟨d', hd', -, hmm⟩ := hsm.mem_discrepancies hd
    rw [hid, ← hmm]
    exact hcle d' hd'

theorem MoneyBooks.recorded {n' : ℕ} (h : MoneyBooks db n) {order : Uuid}
    {lns : List SupplierInvoiceLineInput} {inv : SupplierInvoice} {ls : List SupplierInvoiceLine}
    {ds : List ProcurementDiscrepancy} (hrec : Recorded db n n' order lns inv ls ds)
    (hcov : ∀ ln ∈ lns, ln.Covered) : MoneyBooks (db.recorded inv ls ds) n' := by
  have hnew : (db.recorded inv ls ds).linesOf inv.id = ls :=
    linesOf_recorded h.booked hrec.le_id (Billed.forall_invoice hrec.lines)
  refine ⟨h.booked.recorded hrec, fun x hx ↦ ?_, fun x hx hcle il hil ↦ ?_⟩
  · rcases mem_snoc.mp hx with hx | rfl
    · rw [hrec.linesOf_old (h.booked.invoices_lt x hx)]
      exact h.total x hx
    · rw [hnew]
      exact hrec.total
  · -- the bound of a line is that of the state before: orders and deliveries are the same
    change money il.amount ≤ lineBound db il
    rcases mem_snoc.mp hx with hx | rfl
    · rw [hrec.linesOf_old (h.booked.invoices_lt x hx)] at hil
      exact h.within x hx (fun d hd ↦ hcle d (mem_append_left _ hd)) il hil
    · rw [hnew] at hil
      obtain ⟨ln, hln, hbil⟩ := Billed.exists_input hrec.lines il hil
      have hno : ∀ m, ¬(quantityMismatch db il = some m ∨ priceMismatch db il = some m) :=
        fun m hm ↦ by
        obtain ⟨d, hd, -⟩ := hrec.mem_raised hil hm
        exact hcle d (mem_append_right _ hd) (hrec.raised_invoice d hd)
      exact money_le_lineBound hbil (hcov ln hln)
        (Option.eq_none_iff_forall_ne_some.mpr fun m hm ↦ hno m (.inl hm))
        (Option.eq_none_iff_forall_ne_some.mpr fun m hm ↦ hno m (.inr hm))

/-- While no line of an invoice has an amount above the product of its litres and its price, an
approved invoice without a discrepancy is within what was ordered or received. -/
theorem moneyLaw_of_covered {env : Env} {s₀ s : ProcurementDb × ℕ} (hinit : NoInvoices s₀.1)
    (hrun : Runs (S := schema env) (ProcurementOp.prog env) (fun _ op ↦ op.Covered env) s₀ s) :
    MoneyLaw s.1 := by
  have hs0 : MoneyBooks s₀.1 s₀.2 :=
    ⟨hinit.booked _, fun inv hinv ↦ absurd (hinit.invoices ▸ hinv) not_mem_nil,
      fun inv hinv ↦ absurd (hinit.invoices ▸ hinv) not_mem_nil⟩
  refine (Runs.invariant (I := fun s : ProcurementDb × ℕ ↦ MoneyBooks s.1 s.2) hrun hs0
    fun s op hs hop ↦ ?_).law
  have hn := Prog.le_alone_stamp (op.prog env) s.1 [] s.2
  have hst := ProcurementOp.step env hs.booked op
  generalize (op.prog env).alone s.1 [] s.2 = out at hn hst ⊢
  rcases out with ⟨r, db', n'⟩
  cases hst with
  | kept _ hsm =>
    have hkt := hs.kept hsm
    exact { hkt with booked := hkt.booked.mono hn }
  | recorded _ hlns hrec => exact hs.recorded hrec fun ln hln ↦ hop _ hlns ln hln

/-- Line 2 of the purchase order 1 is for 1000 litres at 2.00. -/
def oneOrder : ProcurementDb where
  orders := [⟨1, 1, 1, .received⟩]
  orderLines := [⟨2, 1, 1, 1000000, 200, by decide, by decide⟩]
  deliveries := [⟨3, some 1, 1000000, by decide⟩]
  invoices := []
  lines := []
  discrepancies := []

/-- An invoice of one line on the purchase order 1, recorded by the user 5. -/
def invoiceOf (number : String) (delivery : Option Uuid) (amount : Option String) : ProcurementOp :=
  .record {
    actor := 5, purchaseOrderId := some 1, invoiceNumber := number,
    receivedAt := none, dueDate := none
    notes := none, now := 0
    lines := [⟨some 2, delivery, 1000, "2.00", amount⟩] }

/-- An invoice for 1000 litres at 2.00 states an amount of 900000.00 and is approved: no discrepancy
is raised. -/
theorem not_moneyLaw_of_amount :
    ∃ s, Runs (S := schema .allowAll) (ProcurementOp.prog .allowAll) (fun _ _ ↦ True)
        (oneOrder, 10) s ∧
      ¬MoneyLaw s.1 := by
  refine exists_and_imp (fun s ↦ ∃ inv ∈ s.1.invoices, inv.status = .approved ∧
    s.1.discrepancies = [] ∧
      ∃ il ∈ s.1.linesOf inv.id, lineBound s.1 il < money il.amount)
    (exists_of_runAll [invoiceOf "A" none (some "900000.00"), .approve 6 12] (by decide +kernel)) ?_
  rintro _ _ ⟨inv, hinv, happ, hcle, il, hil, hlt⟩
  intro h
  have hwit := h inv hinv happ fun d hd ↦ absurd (hcle ▸ hd) not_mem_nil
  exact absurd (hwit.lines il hil) (not_le.mpr hlt)

/-- The invoice without an amount of its own. -/
theorem moneyLaw_of_covered_approved :
    ∃ s, Runs (S := schema .allowAll) (ProcurementOp.prog .allowAll)
    (fun _ op ↦ op.Covered .allowAll)
      (oneOrder, 10) s ∧ (∃ inv ∈ s.1.invoices, inv.status = .approved ∧ inv.totalAmount = 200000) ∧
        MoneyLaw s.1 := by
  refine exists_and_imp (fun s ↦ ∃ inv ∈ s.1.invoices, inv.status = .approved ∧
    inv.totalAmount = 200000)
    (exists_of_runAll [invoiceOf "A" none none, .approve 6 12] (by decide +kernel)) ?_
  rintro _ hs hinv
  exact ⟨hinv, moneyLaw_of_covered ⟨rfl, rfl, rfl⟩ hs⟩

end FuelGrid.Procurement
