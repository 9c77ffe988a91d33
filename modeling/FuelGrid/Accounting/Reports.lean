import FuelGrid.Accounting.Schema
import FuelGrid.Sql.Select

/-!
# Financial reports

`TrialBalance`, `IncomeStatement` and `BalanceSheet` of `internal/accounting/reports.go`. Each is
one query on committed rows.
-/

namespace FuelGrid.Accounting

open Sql

/-- Drafts are not on the books. -/
def JournalEntry.OnBooks (e : JournalEntry) : Prop := e.status = .posted ∨ e.status = .reversed
  deriving Decidable

variable (chart : Chart) (db : AccountingDb)

/-! ## The trial balance

The trial balance starts from the accounts and reaches the entries through two left joins. Its
conditions on the entry stand in the second `ON` clause, so they decide which entry columns are
`NULL` and not which lines are summed. -/

/-- One account's totals. -/
structure TrialBalanceRow where
  account : Account
  debit : Money
  credit : Money
  balance : Money
  deriving DecidableEq

/-- The row of an account, unless the `HAVING` clause drops it. -/
def trialRow (a : Account) (debit credit : Money) : Option TrialBalanceRow :=
  if debit ≠ 0 ∨ credit ≠ 0 then some ⟨a, debit, credit, debit - credit⟩ else none

/-- The `ON` clause of the second join. -/
def OnEntry (asOf : ℤ) (r : Account × Option JournalLine) (e : JournalEntry) : Prop :=
  ∃ l ∈ r.2, e.id = l.journalEntryId ∧ e.OnBooks ∧ e.entryDate ≤ asOf
  deriving Decidable

def trialJoin (asOf : ℤ) : List ((Account × Option JournalLine) × Option JournalEntry) :=
  leftJoin (leftJoin chart.accounts db.lines fun a l ↦ l.accountId = a.id) db.entries
    (OnEntry asOf)

def trialBalance (asOf : ℤ) : List TrialBalanceRow :=
  chart.accounts.filterMap fun a ↦
    let rows := (trialJoin chart db asOf).filter (·.1.1 = a)
    trialRow a (sumOf (fun r ↦ r.1.2.map (·.debit)) rows)
      (sumOf (fun r ↦ r.1.2.map (·.credit)) rows)

/-! ## The income statement and the balance sheet

These two reports use inner joins and a `WHERE` clause. -/

def entryLines : List (JournalLine × JournalEntry) :=
  innerJoin db.lines db.entries fun l e ↦ e.id = l.journalEntryId

def reportJoin : List ((JournalLine × JournalEntry) × Account) :=
  innerJoin (entryLines db) chart.accounts fun r a ↦ a.id = r.1.accountId

/-- The rows whose entry is on the books and satisfies `p`. -/
def reportRows (p : JournalEntry → Prop) [DecidablePred p] :
    List ((JournalLine × JournalEntry) × Account) :=
  (reportJoin chart db).filter fun r ↦ r.1.2.OnBooks ∧ p r.1.2

/-- `COALESCE(SUM(CASE WHEN a.type … END), 0)` -/
def sumCase (case : AccountType → JournalLine → Option Money)
    (rows : List ((JournalLine × JournalEntry) × Account)) : Money :=
  sumOf (fun r ↦ case r.2.type r.1.1) rows

def revenueCase : AccountType → JournalLine → Option Money
  | .income, l => some (l.credit - l.debit)
  | .contraIncome, l => some (-(l.debit - l.credit))
  | _, _ => none

def expenseCase : AccountType → JournalLine → Option Money
  | .expense, l => some (l.debit - l.credit)
  | _, _ => none

def assetCase : AccountType → JournalLine → Option Money
  | .asset, l | .contraAsset, l => some (l.debit - l.credit)
  | _, _ => none

def liabilityCase : AccountType → JournalLine → Option Money
  | .liability, l => some (l.credit - l.debit)
  | _, _ => none

def retainedCase : AccountType → JournalLine → Option Money
  | .equity, l => some (l.credit - l.debit)
  | _, _ => none

def netIncomeCase : AccountType → JournalLine → Option Money
  | .income, l => some (l.credit - l.debit)
  | .contraIncome, l => some (-(l.debit - l.credit))
  | .expense, l => some (-(l.debit - l.credit))
  | _, _ => none

structure IncomeStatement where
  revenue : Money
  expenses : Money
  netProfit : Money

/-- `IncomeStatement`, over the days from `first` to `last`. -/
def incomeStatement (first last : ℤ) : IncomeStatement :=
  let rows := reportRows chart db fun e ↦ first ≤ e.entryDate ∧ e.entryDate ≤ last
  let revenue := sumCase revenueCase rows
  let expenses := sumCase expenseCase rows
  ⟨revenue, expenses, revenue - expenses⟩

/-- The figures of the balance sheet before they are cast for output. -/
structure Balances where
  assets : Money
  liabilities : Money
  retained : Money
  netIncome : Money

/-- The common table expression of `BalanceSheet`. -/
def bal (asOf : ℤ) : Balances :=
  let rows := reportRows chart db fun e ↦ e.entryDate ≤ asOf
  ⟨sumCase assetCase rows, sumCase liabilityCase rows, sumCase retainedCase rows,
    sumCase netIncomeCase rows⟩

structure BalanceSheet where
  assets : Money
  liabilities : Money
  equity : Money
  retainedEarnings : Money
  netIncome : Money
  balanced : Bool
  deriving DecidableEq

/-- The cast to `numeric(14,2)`. -/
def castMoney (x : Money) : Except PgError Money :=
  match (ofUnits 2 x).store 14 2 with
  | some v => .ok v
  | none => .error .numericOverflow

def balanceSheet (asOf : ℤ) : Except PgError BalanceSheet := do
  let b := bal chart db asOf
  return {
    assets := ← castMoney b.assets
    liabilities := ← castMoney b.liabilities
    equity := ← castMoney (b.retained + b.netIncome)
    retainedEarnings := ← castMoney b.retained
    netIncome := ← castMoney b.netIncome
    balanced := decide (b.assets = b.liabilities + b.retained + b.netIncome) }

/-- The value fits into `numeric(14,2)`. -/
def Fits : Money → Prop
  | ⊤ => True
  | (n : ℤ) => |n| < 10 ^ 14

instance : DecidablePred Fits
  | ⊤ => .isTrue trivial
  | (n : ℤ) => inferInstanceAs (Decidable (|n| < 10 ^ 14))

/-- A figure has the scale of the cast, so the cast keeps it or fails. -/
theorem castMoney_eq (x : Money) :
    castMoney x = if Fits x then .ok x else .error .numericOverflow := by
  induction x using WithTop.recTopCoe with
  | top => rfl
  | coe n =>
    have huni : roundHalfAway ((n : ℚ) / 10 ^ 2 * 10 ^ 2) = n := by
      rw [div_mul_cancel₀ _ (by norm_num), roundHalfAway_intCast]
    have hsto : (ofUnits 2 n).store 14 2 = if |n| < 10 ^ 14 then some (n : Money) else none := by
      change Option.map _ (store 14 2 ((n : ℚ) / 10 ^ 2)) = _
      simp only [store, huni]
      split <;> rfl
    rw [castMoney, hsto]
    by_cases hfits : |n| < 10 ^ 14
    · rw [if_pos hfits, if_pos (show Fits n from hfits)]
    · rw [if_neg hfits, if_neg (show ¬Fits n from hfits)]

def Balances.sheet (b : Balances) : BalanceSheet where
  assets := b.assets
  liabilities := b.liabilities
  equity := b.retained + b.netIncome
  retainedEarnings := b.retained
  netIncome := b.netIncome
  balanced := decide (b.assets = b.liabilities + b.retained + b.netIncome)

/-- All figures fit into their casts. -/
def Balances.Fit (b : Balances) : Prop :=
  Fits b.assets ∧ Fits b.liabilities ∧ Fits (b.retained + b.netIncome) ∧ Fits b.retained ∧
    Fits b.netIncome

/-- The balance sheet is returned exactly when its figures fit, and it has these figures. -/
theorem balanceSheet_eq_ok_iff {asOf : ℤ} {b : BalanceSheet} :
    balanceSheet chart db asOf = .ok b ↔
      (bal chart db asOf).Fit ∧ b = (bal chart db asOf).sheet := by
  simp only [balanceSheet, castMoney_eq]
  generalize bal chart db asOf = v
  by_cases h1 : Fits v.assets
  case neg => simp [Balances.Fit, h1, bind, Except.bind]
  by_cases h2 : Fits v.liabilities
  case neg => simp [Balances.Fit, h1, h2, bind, Except.bind]
  by_cases h3 : Fits (v.retained + v.netIncome)
  case neg => simp [Balances.Fit, h1, h2, h3, bind, Except.bind]
  by_cases h4 : Fits v.retained
  case neg => simp [Balances.Fit, h1, h2, h3, h4, bind, Except.bind]
  by_cases h5 : Fits v.netIncome
  case neg => simp [Balances.Fit, h1, h2, h3, h4, h5, bind, Except.bind]
  simp only [Balances.Fit, h1, h2, h3, h4, h5, if_true, bind, Except.bind, pure, Except.pure,
    Except.ok.injEq, true_and, Balances.sheet]
  exact eq_comm

/-! ## Sums by account -/

def typeSum (f : AccountType → JournalLine → Money) (rows : List (JournalLine × JournalEntry)) :
    Money :=
  (chart.accounts.map fun a ↦
    ((rows.filter fun r ↦ a.id = r.1.accountId).map fun r ↦ f a.type r.1).sum).sum

theorem sumCase_reportRows (case : AccountType → JournalLine → Option Money)
    (p : JournalEntry → Prop) [DecidablePred p] :
    sumCase case (reportRows chart db p) = typeSum chart (fun t l ↦ (case t l).getD 0)
      ((entryLines db).filter fun r ↦ r.2.OnBooks ∧ p r.2) := by
  rw [reportRows, reportJoin, filter_innerJoin (entryLines db) chart.accounts _
    fun r ↦ r.2.OnBooks ∧ p r.2, sumCase, sumOf_eq_sum_map, sum_innerJoin_comm]
  rfl

private theorem typeSum_eq_sum_map (f : AccountType → JournalLine → Money)
    (rows : List (JournalLine × JournalEntry)) :
    typeSum chart f rows = (rows.map fun r ↦
      ((chart.accounts.filter fun a ↦ a.id = r.1.accountId).map fun a ↦ f a.type r.1).sum).sum := by
  rw [← sum_innerJoin rows chart.accounts (fun r a ↦ a.id = r.1.accountId)
    fun x ↦ f x.2.type x.1.1, sum_innerJoin_comm]
  rfl

theorem typeSum_congr {f g : AccountType → JournalLine → Money}
    {rows : List (JournalLine × JournalEntry)} (h : ∀ r ∈ rows, ∀ t, f t r.1 = g t r.1) :
    typeSum chart f rows = typeSum chart g rows := by
  rw [typeSum_eq_sum_map, typeSum_eq_sum_map]
  refine congrArg List.sum (map_congr_left fun r hr ↦ ?_)
  exact congrArg List.sum (map_congr_left fun a _ ↦ h r hr a.type)

theorem typeSum_filter_or (f : AccountType → JournalLine → Money)
    (rows : List (JournalLine × JournalEntry)) (p q : JournalLine × JournalEntry → Prop)
    [DecidablePred p] [DecidablePred q] (hpq : ∀ r, p r → ¬q r) :
    typeSum chart f (rows.filter fun r ↦ p r ∨ q r)
      = typeSum chart f (rows.filter (p ·)) + typeSum chart f (rows.filter (q ·)) := by
  rw [typeSum_eq_sum_map, typeSum_eq_sum_map, typeSum_eq_sum_map,
    sum_map_filter fun r ↦ p r ∨ q r, sum_map_filter p, sum_map_filter q, ← List.sum_map_add]
  refine congrArg List.sum (map_congr_left fun r _ ↦ ?_)
  by_cases hp : p r
  · rw [if_pos (.inl hp), if_pos hp, if_neg (hpq r hp), add_zero]
  · simp only [hp, false_or, if_false, zero_add]

theorem typeSum_add (f g : AccountType → JournalLine → Money)
    (rows : List (JournalLine × JournalEntry)) :
    typeSum chart (fun t l ↦ f t l + g t l) rows = typeSum chart f rows + typeSum chart g rows := by
  simp only [typeSum, List.sum_map_add]

theorem typeSum_neg (f : AccountType → JournalLine → Money)
    (rows : List (JournalLine × JournalEntry)) :
    typeSum chart (fun t l ↦ -f t l) rows = -typeSum chart f rows := by
  simp only [typeSum, sum_map_neg]

end FuelGrid.Accounting
