import Mathlib.Data.Prod.Lex
import FuelGrid.Accounting.Schema
import FuelGrid.Stock.Schema

/-!
# Recognition of a shift's sales

`RecognizeShiftSales` values the close lines of a shift into sale rows, and
`PostShiftRevenueJournal` posts their totals. Every amount is rounded to cents on its own; the net
amount and the margin are differences of rounded amounts, so the identities between the columns are
exact, and they survive the sums that the journal is made of.
-/

namespace FuelGrid.Recognition

open Sql
open Accounting (AccountingDb Chart JournalLine PostEntryInput PostLine assertBalanced linesOf
  money0 totalCredit totalDebit)

/-! ## Tables -/

structure Shift where
  id : Uuid
  stationId : Uuid
  businessDate : ℤ

/-- A row of `shift_close_lines`. -/
structure CloseLine where
  shiftId : Uuid
  nozzleId : Uuid
  /-- In thousandths. -/
  litresSold : ℤ

structure Nozzle where
  id : Uuid
  productId : Uuid
  tankId : Uuid

structure Product where
  id : Uuid
  /-- In hundredths of a percent. -/
  taxRate : ℤ

structure PriceChange where
  stationId : Uuid
  productId : Uuid
  /-- In units of `10⁻⁴`. -/
  unitPrice : ℤ
  effectiveFrom : ℕ
  createdAt : ℕ

/-- A row of `stock_movements`. -/
structure StockMovement where
  tankId : Uuid
  movementType : Stock.MovementType
  /-- In thousandths. -/
  litres : ℤ
  /-- In units of `10⁻⁴`. -/
  landedCostPerLitre : Option ℤ
  status : Stock.MovementStatus
  supersedesId : Option Uuid

/-- What `RecognizeShiftSales` reads. -/
structure Tables where
  now : ℕ
  closeLines : List CloseLine
  nozzles : List Nozzle
  products : List Product
  priceChanges : List PriceChange
  movements : List StockMovement

/-- Litres and prices are not negative, nor are tax rates. -/
structure Tables.NonNeg (t : Tables) : Prop where
  litres : ∀ line ∈ t.closeLines, 0 ≤ line.litresSold
  price : ∀ p ∈ t.priceChanges, 0 ≤ p.unitPrice
  taxRate : ∀ p ∈ t.products, 0 ≤ p.taxRate

/-- A row of `sales`; amounts are in cents. -/
structure Sale where
  shiftId : Uuid
  nozzleId : Uuid
  grossAmount : ℤ
  taxAmount : ℤ
  netAmount : ℤ
  cogsAmount : Option ℤ
  marginAmount : Option ℤ
  deriving DecidableEq

/-! ## Recognition

A quotient of numerics is itself rounded, to a number of decimals that the server chooses. All that
matters of it is that it keeps at least the two decimals of the amounts (`Quotients`). -/

/-- How many decimals the server keeps of a quotient. -/
structure Quotients where
  scale : ℚ → ℚ → ℕ
  two_le : ∀ x y, 2 ≤ scale x y

/-- `ROUND(x, s)` -/
def round (s : ℕ) (x : ℚ) : ℚ := roundHalfAway (x * 10 ^ s) / 10 ^ s

def Quotients.div (q : Quotients) (x y : ℚ) : ℚ := round (q.scale x y) (x / y)

def Tables.unitPrice (t : Tables) (station product : Uuid) : Option ℚ :=
  ((t.priceChanges.filter fun p ↦ p.stationId = station ∧ p.productId = product ∧
    p.effectiveFrom ≤ t.now).argmax fun p ↦ toLex (p.effectiveFrom, p.createdAt)).map
      fun p ↦ p.unitPrice / 10 ^ 4

/-- The average landed cost over the costed deliveries of a tank. -/
def Tables.avgCost (q : Quotients) (t : Tables) (tank : Uuid) : Option ℚ :=
  let costed : List (ℚ × ℚ) := t.movements.filterMap fun m ↦
    if m.tankId = tank ∧ m.movementType = .delivery ∧ 0 < m.litres ∧ m.status = .posted ∧
        m.supersedesId = none then
      m.landedCostPerLitre.map fun cost ↦ (m.litres / 10 ^ 3, cost / 10 ^ 4)
    else none
  let litres := (costed.map (·.1)).sum
  if litres = 0 then none else some (q.div (costed.map fun x ↦ x.1 * x.2).sum litres)

/-- A row of the subquery `lines`. -/
structure PricedLine where
  nozzleId : Uuid
  litres : ℚ
  unitPrice : ℚ
  taxRate : ℚ
  avgCost : Option ℚ

/-- The row of a close line: it has litres, and the product of its nozzle has a price. -/
def Tables.priced (q : Quotients) (t : Tables) (shift : Shift) (line : CloseLine) :
    Option PricedLine := do
  guard (line.litresSold ≠ 0)
  let nozzle ← t.nozzles.find? (·.id = line.nozzleId)
  let product ← t.products.find? (·.id = nozzle.productId)
  let unitPrice ← t.unitPrice shift.stationId nozzle.productId
  return {
    nozzleId := line.nozzleId
    litres := line.litresSold / 10 ^ 3
    unitPrice
    taxRate := product.taxRate / 10 ^ 2
    avgCost := t.avgCost q nozzle.tankId }

/-- The sale of a line; `none` is an overflow of a column. -/
def PricedLine.sale (q : Quotients) (shift : Uuid) (x : PricedLine) : Option Sale := do
  let gross := round 2 (x.litres * x.unitPrice)
  let tax := round 2 (q.div (gross * x.taxRate) (100 + x.taxRate))
  let net := gross - tax
  let grossAmount ← store 14 2 gross
  let taxAmount ← store 14 2 tax
  let netAmount ← store 14 2 net
  match x.avgCost with
  | none => return ⟨shift, x.nozzleId, grossAmount, taxAmount, netAmount, none, none⟩
  | some avgCost =>
    let cogs := round 2 (x.litres * avgCost)
    let _ ← store 14 4 avgCost
    let cogsAmount ← store 14 2 cogs
    let marginAmount ← store 14 2 (net - cogs)
    return ⟨shift, x.nozzleId, grossAmount, taxAmount, netAmount, some cogsAmount,
      some marginAmount⟩

/-- `uq_sales_shift_nozzle` has the key of `s`. -/
def HasKey (sales : List Sale) (s : Sale) : Prop :=
  ∃ o ∈ sales, o.shiftId = s.shiftId ∧ o.nozzleId = s.nozzleId
  deriving Decidable

/-- The insert of the rows, `ON CONFLICT (shift_id, nozzle_id) DO NOTHING`. -/
def insertSales : List (Option Sale) → List Sale → Except Accounting.PgError (List Sale)
  | [], sales => .ok sales
  | none :: _, _ => .error .numericOverflow
  | some s :: new, sales => insertSales new <|
      if HasKey sales s then sales else sales ++ [s]

/-- The lines that `RecognizeShiftSales` values. -/
def Tables.pricedLines (q : Quotients) (t : Tables) (shift : Shift) : List PricedLine :=
  (t.closeLines.filter (·.shiftId = shift.id)).filterMap (t.priced q shift)

def recognizeShiftSales (q : Quotients) (t : Tables) (shift : Shift) (sales : List Sale) :
    Except Accounting.PgError (List Sale) :=
  insertSales ((t.pricedLines q shift).map (·.sale q shift.id)) sales

/-! ## The journal of a shift -/

def postLine (shift : Shift) (systemKey : String) (debit credit : ℤ) : PostLine where
  systemKey := systemKey
  debit := some (.ofUnits 2 debit)
  credit := some (.ofUnits 2 credit)
  stationId := some shift.stationId

/-- The identities between the amounts of a sale. -/
structure Sale.Consistent (s : Sale) : Prop where
  gross : s.netAmount + s.taxAmount = s.grossAmount
  margin : s.marginAmount = s.cogsAmount.map (s.netAmount - ·)
  tax_nonneg : 0 ≤ s.taxAmount
  tax_le : s.taxAmount ≤ s.grossAmount

/-- The sales that recognitions of any shifts make, one after the other. -/
inductive Recognized (q : Quotients) : List Sale → Prop
  | empty : Recognized q []
  | run (t : Tables) (shift : Shift) {sales sales' : List Sale} (h : Recognized q sales)
      (ht : t.NonNeg) (hrun : recognizeShiftSales q t shift sales = .ok sales') :
      Recognized q sales'

section Rounding

variable {q : Quotients} {x y : ℚ} {n : ℤ}

private theorem round_mul (s : ℕ) (x : ℚ) : round s x * 10 ^ s = roundHalfAway (x * 10 ^ s) :=
  div_mul_cancel₀ _ (by positivity)

private theorem round_nonneg (s : ℕ) (hx : 0 ≤ x) : 0 ≤ round s x := by
  have := roundHalfAway_nonneg (x := x * 10 ^ s) (by positivity)
  exact div_nonneg (by exact_mod_cast this) (by positivity)

/-- Rounding does not pass a number that has no more decimals. -/
theorem round_le_of_le {s : ℕ} (hy : y * 10 ^ 2 = n) (hs : 2 ≤ s) (hxy : x ≤ y) :
    round s x ≤ y := by
  have huni : y * 10 ^ s = ((n * 10 ^ (s - 2) : ℤ) : ℚ) := by
    push_cast
    rw [← hy, mul_assoc, ← pow_add, Nat.add_sub_cancel' hs]
  refine (div_le_iff₀ (by positivity)).mpr ?_
  rw [huni]
  exact_mod_cast roundHalfAway_le (huni ▸ mul_le_mul_of_nonneg_right hxy (by positivity))

/-- The tax that an amount of whole cents includes is between nothing and the amount. -/
theorem tax_mem {gross rate : ℚ} (hn : gross * 10 ^ 2 = n) (hgro : 0 ≤ gross) (hrate : 0 ≤ rate) :
    0 ≤ round 2 (q.div (gross * rate) (100 + rate)) ∧
      round 2 (q.div (gross * rate) (100 + rate)) ≤ gross := by
  have hle : gross * rate / (100 + rate) ≤ gross := by
    rw [div_le_iff₀ (by linarith)]
    nlinarith
  refine ⟨round_nonneg _ (round_nonneg _ (by positivity)), round_le_of_le hn le_rfl ?_⟩
  exact round_le_of_le hn (q.two_le _ _) hle

end Rounding

variable {s : Sale} {id : Uuid}

section Rows

variable {q : Quotients} {t : Tables} {shift : Shift} {x : PricedLine}

private theorem sub_units {x y : ℤ} {a b : ℚ} (ha : a * 10 ^ 2 = x) (hb : b * 10 ^ 2 = y) :
    (a - b) * 10 ^ 2 = ((x - y : ℤ) : ℚ) := by
  push_cast
  rw [← ha, ← hb]
  ring

theorem PricedLine.sale_eq_some (hlit : 0 ≤ x.litres) (hpri : 0 ≤ x.unitPrice)
    (hrate : 0 ≤ x.taxRate) (h : x.sale q id = some s) : s.Consistent := by
  simp only [PricedLine.sale, bind_eq_bind, bind_eq_some_iff] at h
  obtain ⟨gross, hgro, tax, htax, net, hnet, h⟩ := h
  have hg := round_mul 2 (x.litres * x.unitPrice)
  have ht := round_mul 2
    (q.div (round 2 (x.litres * x.unitPrice) * x.taxRate) (100 + x.taxRate))
  obtain ⟨hnn, hle⟩ := tax_mem (q := q) hg (round_nonneg _ (by positivity)) hrate
  obtain rfl := store_units hg hgro
  have htal := store_le hle htax
  have htax0 := store_nonneg hnn htax
  obtain rfl := store_units ht htax
  obtain rfl := store_units (sub_units hg ht) hnet
  split at h
  · obtain rfl := some.inj h
    exact ⟨sub_add_cancel _ _, rfl, htax0, htal⟩
  next avgCost _ =>
    simp only [bind_eq_some_iff] at h
    obtain ⟨-, -, cogs, hcogs, margin, hmar, h⟩ := h
    obtain rfl := some.inj h
    have hc := round_mul 2 (x.litres * avgCost)
    obtain rfl := store_units hc hcogs
    obtain rfl := store_units (sub_units (sub_units hg ht) hc) hmar
    exact ⟨sub_add_cancel _ _, rfl, htax0, htal⟩

theorem Tables.NonNeg.priced (ht : t.NonNeg) (hx : x ∈ t.pricedLines q shift) :
    0 ≤ x.litres ∧ 0 ≤ x.unitPrice ∧ 0 ≤ x.taxRate := by
  obtain ⟨line, hln, hx⟩ := mem_filterMap.mp hx
  simp only [Tables.priced, bind_eq_bind, bind_eq_some_iff] at hx
  obtain ⟨-, -, nozzle, -, product, hpr, price, hpri, hx⟩ := hx
  obtain rfl := some.inj hx
  obtain ⟨p, hp, rfl⟩ := map_eq_some_iff.mp hpri
  have hlit := ht.litres line (mem_filter.mp hln).1
  have hp := ht.price p (mem_filter.mp (List.argmax_mem hp)).1
  have hrate := ht.taxRate product (mem_of_find?_eq_some hpr)
  refine ⟨div_nonneg ?_ (by positivity), div_nonneg ?_ (by positivity),
    div_nonneg ?_ (by positivity)⟩ <;>
    exact_mod_cast ‹_›

end Rows

/-! ## The insert

Recognition may run again, and a line that has its row is passed over. A line without a price is
passed over too, and prices are those in force when the statement runs, so a run after the first
price of a product has taken effect adds the rows that the earlier one could not value
(`not_again_of_scheduled`). -/

section Insert

variable {new : List (Option Sale)} {sales sales' : List Sale}

private theorem insertSales_cons {s : Option Sale} (h : insertSales (s :: new) sales = .ok sales') :
    ∃ x, s = some x ∧
      insertSales new (if HasKey sales x then sales else sales ++ [x]) = .ok sales' := by
  rcases s with _ | x
  · cases h
  · exact ⟨x, rfl, h⟩

private theorem mem_insertSales (h : insertSales new sales = .ok sales') (hs : s ∈ sales') :
    s ∈ sales ∨ some s ∈ new := by
  induction new generalizing sales with
  | nil => exact .inl (ok.inj h ▸ hs)
  | cons x new ih =>
    obtain ⟨x, rfl, h⟩ := insertSales_cons h
    rcases ih h with hmem | hmem
    · split at hmem
      · exact .inl hmem
      · rcases mem_append.mp hmem with hmem | hmem
        · exact .inl hmem
        · exact .inr (mem_singleton.mp hmem ▸ mem_cons_self)
    · exact .inr (mem_cons_of_mem _ hmem)

end Insert

section Runs

variable {q : Quotients} {sales : List Sale}

theorem Recognized.consistent (h : Recognized q sales) : ∀ s ∈ sales, s.Consistent := by
  induction h with
  | empty => nofun
  | run t shift _ ht hrun ih =>
    intro s hs
    rcases mem_insertSales hrun hs with hmem | hmem
    · exact ih s hmem
    · obtain ⟨x, hx, hsl⟩ := mem_map.mp hmem
      obtain ⟨hlit, hpri, hrate⟩ := ht.priced hx
      exact PricedLine.sale_eq_some hlit hpri hrate hsl

end Runs

/-! ## The trigger -/

section Trigger

variable {chart : Chart} {entry : Uuid} {shift : Shift}

/-- `l` is the line that `PostEntry` inserts for `ln`. -/
def Inserts (chart : Chart) (entry : Uuid) (ln : PostLine)
    (l : JournalLine) : Prop :=
  ∃ account, Accounting.insertLine chart ⟨entry, account, money0 ln.debit,
    money0 ln.credit, ln.stationId, ln.memo⟩ = .ok l

theorem Inserts.amounts {systemKey : String} {debit credit : ℤ} {l : JournalLine}
    (h : Inserts chart entry (postLine shift systemKey debit credit) l) :
    l.debit = (debit : Money) ∧ l.credit = (credit : Money) ∧
      (ofUnits 2 debit).store 14 2 = some (debit : Money) := by
  obtain ⟨account, h⟩ := h
  obtain ⟨-, -, -, -, hdb, hcr⟩ := Accounting.insertLine_eq_ok h
  have hdb : (ofUnits 2 debit).store 14 2 = some l.debit := hdb
  have hcr : (ofUnits 2 credit).store 14 2 = some l.credit := hcr
  have hd := store_ofUnits hdb
  exact ⟨hd, store_ofUnits hcr, hd ▸ hdb⟩

end Trigger

end FuelGrid.Recognition
