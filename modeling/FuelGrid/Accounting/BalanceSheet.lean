import FuelGrid.Accounting.TrialBalance

/-!
# The accounting equation

Each entry balances, so over the lines up to a date debits equal credits, and sorting the lines by
account type turns this into Assets = Liabilities + Equity.
-/

namespace FuelGrid.Accounting

open Sql

/-- What `BalanceSheet` promises of its figures. -/
structure BalanceSheetLaw (chart : Chart) (db : AccountingDb) (asOf : ℤ) : Prop where
  equation : (bal chart db asOf).assets
    = (bal chart db asOf).liabilities +
      ((bal chart db asOf).retained + (bal chart db asOf).netIncome)
  /-- The result is that of two adjoining ranges, the first of which starts early enough. -/
  profit : ∀ first c, (∀ e ∈ db.entries, first ≤ e.entryDate) → c ≤ asOf →
    (bal chart db asOf).netIncome = (incomeStatement chart db first c).netProfit
      + (incomeStatement chart db (c + 1) asOf).netProfit
  /-- The sheet is returned unless a figure does not fit into its cast. -/
  returned : (bal chart db asOf).Fit → ∃ b, balanceSheet chart db asOf = .ok b
  sheet : ∀ b, balanceSheet chart db asOf = .ok b →
    b.assets = b.liabilities + b.equity ∧ b.equity = b.retainedEarnings + b.netIncome ∧
    b.netIncome = (bal chart db asOf).netIncome ∧ b.balanced = true

variable {chart : Chart} {db : AccountingDb} {n : ℕ}

/-! ## The result

The split of the result over two income statements needs no cancelling and holds in any case
(`netIncome_eq_add`). -/

private theorem netProfit_eq (chart : Chart) (db : AccountingDb) (first last : ℤ) :
    (incomeStatement chart db first last).netProfit
      = typeSum chart (fun t l ↦ (netIncomeCase t l).getD 0) ((entryLines db).filter fun r ↦
        r.2.OnBooks ∧ first ≤ r.2.entryDate ∧ r.2.entryDate ≤ last) := by
  simp only [incomeStatement, sumCase_reportRows, sub_eq_add_neg, ← typeSum_neg, ← typeSum_add]
  refine congrArg (typeSum chart · _) ?_
  funext t l
  cases t <;> simp [revenueCase, expenseCase, netIncomeCase, sub_eq_add_neg]

theorem netIncome_eq_add {first c asOf : ℤ} (hfir : ∀ e ∈ db.entries, first ≤ e.entryDate)
    (hc : c ≤ asOf) : (bal chart db asOf).netIncome
      = (incomeStatement chart db first c).netProfit
        + (incomeStatement chart db (c + 1) asOf).netProfit := by
  have hspl : ((entryLines db).filter fun r ↦ r.2.OnBooks ∧ r.2.entryDate ≤ asOf)
      = (entryLines db).filter fun r ↦
        (r.2.OnBooks ∧ first ≤ r.2.entryDate ∧ r.2.entryDate ≤ c) ∨
        (r.2.OnBooks ∧ c + 1 ≤ r.2.entryDate ∧ r.2.entryDate ≤ asOf) := by
    refine filter_congr fun r hr ↦ ?_
    have hdate := hfir r.2 (mem_entryLines.mp hr).2.1
    by_cases hbk : r.2.OnBooks
    · simp only [hbk, true_and]
      exact decide_eq_decide.mpr (by omega)
    · simp only [hbk, false_and, or_self]
  change sumCase netIncomeCase (reportRows chart db fun e ↦ e.entryDate ≤ asOf) = _
  rw [sumCase_reportRows, netProfit_eq, netProfit_eq, hspl]
  exact typeSum_filter_or chart _ _
    (fun r ↦ r.2.OnBooks ∧ first ≤ r.2.entryDate ∧ r.2.entryDate ≤ c)
    (fun r ↦ r.2.OnBooks ∧ c + 1 ≤ r.2.entryDate ∧ r.2.entryDate ≤ asOf)
    fun r hp hq ↦ by omega

/-- A line counts for the assets as for the other side, up to its own difference. -/
theorem assetCase_getD {l : JournalLine} (hdb : l.debit ≠ ⊤) (hcr : l.credit ≠ ⊤)
    (t : AccountType) : (assetCase t l).getD 0
      = (liabilityCase t l).getD 0 + ((retainedCase t l).getD 0 + (netIncomeCase t l).getD 0)
        + (l.debit - l.credit) := by
  obtain ⟨d, hd⟩ := WithTop.ne_top_iff_exists.mp hdb
  obtain ⟨c, hc⟩ := WithTop.ne_top_iff_exists.mp hcr
  have hcan : l.credit - l.debit + (l.debit - l.credit) = 0 := by
    rw [← hd, ← hc]
    norm_cast
    omega
  cases t <;> simp [assetCase, liabilityCase, retainedCase, netIncomeCase, hcan]

/-- Assets equal liabilities and equity in a journal without `NaN`. -/
theorem assets_eq (hinv : JournalInv chart (· ≠ ⊤) db n) (asOf : ℤ) : (bal chart db asOf).assets
    = (bal chart db asOf).liabilities
      + ((bal chart db asOf).retained + (bal chart db asOf).netIncome) := by
  set rows := (entryLines db).filter fun r ↦ r.2.OnBooks ∧ r.2.entryDate ≤ asOf
  have hmem : ∀ r ∈ rows, r.1 ∈ db.lines := fun r hr ↦
    (mem_entryLines.mp (mem_of_mem_filter hr)).1
  have hdiff : typeSum chart (fun _ l ↦ l.debit - l.credit) rows = 0 := by
    have hdb : ((rows.map fun r ↦ r.1.debit).sum : Money) ≠ ⊤ :=
      sum_map_ne_top.mpr fun r hr ↦ (hinv.lines.amounts r.1 (hmem r hr)).1
    calc typeSum chart (fun _ l ↦ l.debit - l.credit) rows
        = (rows.map fun r ↦ r.1.debit - r.1.credit).sum :=
          sum_accountTotal hinv hmem fun l ↦ l.debit - l.credit
      _ = (rows.map fun r ↦ r.1.debit).sum - (rows.map fun r ↦ r.1.credit).sum := sum_map_sub _ _ _
      _ = (rows.map fun r ↦ r.1.debit).sum - (rows.map fun r ↦ r.1.debit).sum := by
          rw [debits_eq_credits hinv fun e ↦ e.OnBooks ∧ e.entryDate ≤ asOf]
      _ = 0 := LinearOrderedAddCommGroupWithTop.sub_self_eq_zero_iff_ne_top.mpr hdb
  have hlns : typeSum chart (fun t l ↦ (assetCase t l).getD 0) rows
      = typeSum chart (fun t l ↦ (liabilityCase t l).getD 0 + ((retainedCase t l).getD 0
        + (netIncomeCase t l).getD 0) + (l.debit - l.credit)) rows :=
    typeSum_congr chart fun r hr t ↦
      assetCase_getD (hinv.lines.amounts r.1 (hmem r hr)).1 (hinv.lines.amounts r.1 (hmem r hr)).2 t
  simp only [bal, sumCase_reportRows]
  rw [hlns, typeSum_add, hdiff, add_zero, typeSum_add, typeSum_add]

/-! ## Journals without NaN

The argument cancels amounts, which `NaN` does not allow: an entry that moves `NaN` between two
asset accounts balances by the rules of the type and makes the assets `NaN`, while the other side
stays a number (`not_balanceSheetLaw_of_nan`). Nothing on the way of a manual adjustment refuses
such an amount. -/

/-- No amount of the call is `NaN`. -/
def JournalCall.Finite : JournalCall → Prop
  | .post input => ∀ ln ∈ input.lines, money0 ln.debit ≠ .nan ∧ money0 ln.credit ≠ .nan
  | .reverse _ _ _ => True

/-- No amount of the operation is `NaN`. -/
def Op.Finite : Op → Prop
  | .journal _ calls => ∀ call ∈ calls, call.Finite
  | _ => True

theorem Op.Finite.amounts {op : Op} (h : op.Finite) : op.Amounts (· ≠ ⊤) := by
  have hsto : ∀ x : Numeric, x ≠ .nan → ∀ v ∈ x.store 14 2, v ≠ ⊤ := by
    intro x hx v hv
    obtain ⟨q, u, -, -, rfl⟩ := Numeric.store_eq_some hx hv
    exact WithTop.coe_ne_top
  cases op with
  | journal now calls =>
    intro call hcall
    have hfin := h call hcall
    cases call with
    | post input =>
      exact fun ln hln ↦ ⟨hsto _ (hfin ln hln).1, hsto _ (hfin ln hln).2⟩
    | reverse entry postedBy memo => trivial
  | createPeriod startDate endDate => trivial
  | transition edge id actorId now => trivial

/-- In every journal that is reached without posting `NaN`, in any interleaving, and at every date
the accounting equation holds. -/
theorem balanceSheetLaw_of_finite {T : Type} [DecidableEq T] (chart : Chart)
    (periods : List Period) (n : ℕ) (ops : T → Op) (hfinite : ∀ t, (ops t).Finite)
    {s : State (schema chart) T}
    (hreach : Reach (fun _ _ ↦ True) (openingState chart periods n ops) s) (asOf : ℤ) :
    BalanceSheetLaw chart s.db asOf := by
  have hinv := (journalInv_of_reach (fun t ↦ (hfinite t).amounts) hreach).1
  have heq := assets_eq hinv asOf
  refine ⟨heq, fun first c hfir hc ↦ netIncome_eq_add hfir hc,
    fun hfit ↦ ⟨_, (balanceSheet_eq_ok_iff chart s.db).mpr ⟨hfit, rfl⟩⟩, fun b hb ↦ ?_⟩
  obtain ⟨-, rfl⟩ := (balanceSheet_eq_ok_iff chart s.db).mp hb
  refine ⟨heq, rfl, rfl, decide_eq_true ?_⟩
  rw [heq, add_assoc]

/-- `NaN` moved from the bank to the cash account balances, and leaves assets that nothing on the
other side matches. -/
theorem not_balanceSheetLaw_of_nan :
    ∃ s : State (schema smallChart) Unit,
      Reach (fun _ _ ↦ True) (openingState smallChart [smallPeriod .opened] 1 fun _ ↦
        .journal 0 [smallPost 20 1 2 .nan false]) s ∧
      ¬BalanceSheetLaw smallChart s.db 31 := by
  refine exists_and_imp (fun s ↦ balanceSheet smallChart s.db 31 = .ok ⟨⊤, 0, 0, 0, 0, false⟩)
    (exists_of_runs (turns [((), 7)]) (by decide +kernel)) ?_
  intro _ _ hshe h
  have hbal := (h.sheet _ hshe).2.2.2
  cases hbal

/-- A sale of 100 and its reversal. -/
theorem balanceSheetLaw_of_finite_reversed :
    ∃ s : State (schema smallChart) Unit,
      Reach (fun _ _ ↦ True) (openingState smallChart [smallPeriod .opened] 1 fun _ ↦
        .journal 0 [smallPost 20 1 3 (.finite 100) false, .reverse 2 0 none]) s ∧
      s.db.entries.length = 2 ∧ BalanceSheetLaw smallChart s.db 31 := by
  refine exists_and_imp (fun s ↦ s.db.entries.length = 2)
    (exists_of_runs (turns [((), 20)]) (by decide +kernel)) ?_
  rintro _ hrch hlen
  refine ⟨hlen, balanceSheetLaw_of_finite smallChart _ 1 _ (fun _ ↦ ?_) hrch 31⟩
  simp [Op.Finite, JournalCall.Finite, smallPost, money0]

end FuelGrid.Accounting
