import FuelGrid.Accounting.JournalSafety
import FuelGrid.Accounting.Reports

/-!
# What the trial balance sums

The two left joins of `TrialBalance` keep every line of an account: whether the entry of a line
passes the conditions on status and date decides only if its columns are `NULL`. The totals are
therefore those of the whole journal (`trialBalance_eq`), whatever the date.
-/

namespace FuelGrid.Accounting

open Sql

variable {chart : Chart} {ok : Money → Prop} {db : AccountingDb} {n : ℕ} {a : Account}
  {r : JournalLine × JournalEntry}

/-! ## Totals by account -/

/-- The total of `f` over the lines of an account. -/
def accountTotal (f : JournalLine → Money) (rows : List (JournalLine × JournalEntry))
    (account : Uuid) : Money :=
  ((rows.filter fun r ↦ account = r.1.accountId).map fun r ↦ f r.1).sum

def trialRows (chart : Chart) (rows : List (JournalLine × JournalEntry)) : List TrialBalanceRow :=
  chart.accounts.filterMap fun a ↦
    trialRow a (accountTotal (·.debit) rows a.id) (accountTotal (·.credit) rows a.id)

def BookedBy (asOf : ℤ) (r : JournalLine × JournalEntry) : Prop :=
  r.2.OnBooks ∧ r.2.entryDate ≤ asOf
  deriving Decidable

/-- The lines of the entries posted or reversed with a date up to `asOf`. -/
def booked (db : AccountingDb) (asOf : ℤ) : List (JournalLine × JournalEntry) :=
  (entryLines db).filter (BookedBy asOf ·)

private theorem accountTotal_entryLines (f : JournalLine → Money) (asOf : ℤ) (a : Uuid) :
    accountTotal f (entryLines db) a = accountTotal f (booked db asOf) a
      + accountTotal f ((entryLines db).filter fun r ↦ ¬BookedBy asOf r) a := by
  rw [accountTotal, ← List.sum_map_filter_add_sum_map_filter_not (BookedBy asOf), accountTotal,
    accountTotal, booked, List.filter_comm,
    List.filter_comm (p := fun r ↦ decide (¬BookedBy asOf r))]

section Inv

variable (hinv : JournalInv chart ok db n)

include hinv

private theorem sum_entryLines (f : JournalLine → Money) :
    ((entryLines db).map fun r ↦ f r.1).sum = (db.lines.map f).sum :=
  sum_innerJoin_of_references hinv.nodup (fun l : JournalLine ↦ l.journalEntryId)
    (fun _ _ ↦ Iff.rfl) hinv.lines.refs f

private theorem trialJoin_eq (asOf : ℤ) : trialJoin chart db asOf
    = (leftJoin chart.accounts db.lines fun a l ↦ l.accountId = a.id).map
      fun r ↦ (r, db.entries.find? fun e ↦ OnEntry asOf r e) := by
  refine leftJoin_eq_map _ _ _ hinv.nodup fun r ↦ ?_
  cases hl : r.2 with
  | none => exact ⟨0, fun e ⟨l, hmem, _⟩ ↦ by rw [hl] at hmem; cases hmem⟩
  | some l =>
    refine ⟨l.journalEntryId, fun e ⟨l', hmem, hid, _⟩ ↦ ?_⟩
    rw [hl] at hmem
    rw [hid, some.inj hmem]

/-- The sum of a group of the trial balance is over all lines of the account. -/
theorem sumOf_trialJoin (f : JournalLine → Money) (asOf : ℤ) (ha : a ∈ chart.accounts) :
    sumOf (fun r ↦ r.1.2.map f) ((trialJoin chart db asOf).filter (·.1.1 = a))
      = accountTotal f (entryLines db) a.id := by
  have hsin : chart.accounts.filter (· = a) = [a] := by
    have hnd : chart.accounts.Nodup := chart.ids_nodup.of_map
    rw [List.filter_eq a, List.count_eq_one_of_mem hnd ha]
    rfl
  have hgro : sumOf (fun r ↦ r.1.2.map f) ((trialJoin chart db asOf).filter (·.1.1 = a))
      = ((db.lines.filter fun l ↦ l.accountId = a.id).map f).sum := by
    rw [trialJoin_eq hinv, filter_map, sumOf, filterMap_map]
    change sumOf (fun r : Account × Option JournalLine ↦ r.2.map f)
      ((leftJoin chart.accounts db.lines fun a l ↦ l.accountId = a.id).filter (·.1 = a)) = _
    rw [filter_leftJoin chart.accounts db.lines (fun a l ↦ l.accountId = a.id) (· = a), hsin,
      sumOf_leftJoin_singleton]
  rw [hgro, accountTotal, sum_map_filter (fun l : JournalLine ↦ l.accountId = a.id),
    sum_map_filter fun r : JournalLine × JournalEntry ↦ a.id = r.1.accountId]
  rw [sum_entryLines hinv fun l ↦ if a.id = l.accountId then f l else 0]
  refine congrArg List.sum (map_congr_left fun l _ ↦ ?_)
  simp only [eq_comm]

theorem trialBalance_eq (asOf : ℤ) :
    trialBalance chart db asOf = trialRows chart (entryLines db) := by
  refine List.filterMap_congr fun a ha ↦ ?_
  simp only [sumOf_trialJoin hinv _ asOf ha]

end Inv

variable {rows rows' : List (JournalLine × JournalEntry)}

/-- A reported account has the same totals in every trial balance that has its row. -/
private theorem totals_eq_of_subset (hsub : trialRows chart rows ⊆ trialRows chart rows')
    (ha : a ∈ chart.accounts)
    (hne : accountTotal (·.debit) rows a.id ≠ 0 ∨ accountTotal (·.credit) rows a.id ≠ 0) :
    accountTotal (·.debit) rows a.id = accountTotal (·.debit) rows' a.id ∧
      accountTotal (·.credit) rows a.id = accountTotal (·.credit) rows' a.id := by
  have hrow := hsub (mem_filterMap.mpr ⟨a, ha, if_pos hne⟩)
  obtain ⟨a', -, hrow'⟩ := mem_filterMap.mp hrow
  unfold trialRow at hrow'
  split at hrow'
  · obtain ⟨rfl, hdb, hcr, -⟩ := TrialBalanceRow.mk.inj (some.inj hrow').symm
    exact ⟨hdb, hcr⟩
  · cases hrow'

/-- The rows determine the totals, also of the accounts that are left out. -/
theorem totals_eq_of_trialRows_eq (h : trialRows chart rows = trialRows chart rows')
    (ha : a ∈ chart.accounts) :
    accountTotal (·.debit) rows a.id = accountTotal (·.debit) rows' a.id ∧
      accountTotal (·.credit) rows a.id = accountTotal (·.credit) rows' a.id := by
  by_cases hne : accountTotal (·.debit) rows a.id ≠ 0 ∨ accountTotal (·.credit) rows a.id ≠ 0
  · exact totals_eq_of_subset (fun _ hr ↦ h ▸ hr) ha hne
  by_cases hne' : accountTotal (·.debit) rows' a.id ≠ 0 ∨ accountTotal (·.credit) rows' a.id ≠ 0
  · exact (totals_eq_of_subset (fun _ hr ↦ h.symm ▸ hr) ha hne').imp Eq.symm Eq.symm
  · rw [not_or, not_not, not_not] at hne hne'
    rw [hne.1, hne.2, hne'.1, hne'.2]
    exact ⟨rfl, rfl⟩

/-- A column of the rows, summed: accounts that are left out add nothing. -/
theorem sum_trialRows (g : TrialBalanceRow → Money) (chart : Chart)
    (hz : ∀ a, g ⟨a, 0, 0, 0 - 0⟩ = 0) :
    ((trialRows chart rows).map g).sum = (chart.accounts.map fun a ↦
      g ⟨a, accountTotal (·.debit) rows a.id, accountTotal (·.credit) rows a.id,
        accountTotal (·.debit) rows a.id - accountTotal (·.credit) rows a.id⟩).sum := by
  rw [trialRows, List.map_filterMap]
  change sumOf _ _ = _
  rw [sumOf_eq_sum_map]
  refine congrArg List.sum (map_congr_left fun a _ ↦ ?_)
  simp only [trialRow]
  split
  · rfl
  next hno =>
    rw [not_or, not_not, not_not] at hno
    rw [hno.1, hno.2, hz]
    rfl

/-! ## Grouping

The rows of an account type sum to the figure that the balance sheet has for it. -/

section Inv

variable (hinv : JournalInv chart ok db n)

include hinv

theorem sum_accountTotal (hrs : ∀ r ∈ rows, r.1 ∈ db.lines) (f : JournalLine → Money) :
    (chart.accounts.map fun a ↦ accountTotal f rows a.id).sum = (rows.map fun r ↦ f r.1).sum := by
  have hmem : ∀ r ∈ rows, r.1.accountId ∈ chart.accounts.map (·.id) := fun r hr ↦
    mem_map.mpr (hinv.lines.accounts r.1 (hrs r hr))
  have honce : ((innerJoin rows chart.accounts fun r a ↦ a.id = r.1.accountId).map
      fun x ↦ f x.1.1).sum = (rows.map fun r ↦ f r.1).sum :=
    sum_innerJoin_of_references chart.ids_nodup
      (fun r : JournalLine × JournalEntry ↦ r.1.accountId) (fun _ _ ↦ Iff.rfl) hmem fun r ↦ f r.1
  rw [← honce, sum_innerJoin_comm]
  rfl

/-- The debits of the journal equal its credits, as of any condition on its entries. -/
theorem debits_eq_credits (p : JournalEntry → Prop) [DecidablePred p] :
    (((entryLines db).filter fun r ↦ p r.2).map fun r ↦ r.1.debit).sum
      = (((entryLines db).filter fun r ↦ p r.2).map fun r ↦ r.1.credit).sum := by
  have hside : ∀ f : JournalLine → Money,
      (((entryLines db).filter fun r ↦ p r.2).map fun r ↦ f r.1).sum
        = (db.entries.map fun e ↦ if p e then ((linesOf db.lines e.id).map f).sum else 0).sum := by
    intro f
    rw [sum_map_filter fun r : JournalLine × JournalEntry ↦ p r.2, entryLines, sum_innerJoin_comm]
    refine congrArg List.sum (map_congr_left fun e _ ↦ ?_)
    have hlns : (db.lines.filter fun l ↦ e.id = l.journalEntryId) = linesOf db.lines e.id :=
      filter_congr fun l _ ↦ by simp only [eq_comm]
    rw [hlns]
    by_cases hp : p e
    · simp only [if_pos hp]
    · simp only [if_neg hp]
      exact List.sum_map_zero
  rw [hside, hside]
  refine congrArg List.sum (map_congr_left fun e he ↦ ?_)
  have hbal : totalDebit (linesOf db.lines e.id) = totalCredit (linesOf db.lines e.id) :=
    hinv.balanced e he
  rw [totalDebit, totalCredit] at hbal
  rw [hbal]

end Inv

def netOf (types : List AccountType) (rows : List TrialBalanceRow) : Money :=
  ((rows.filter fun r ↦ r.account.type ∈ types).map (·.balance)).sum

private theorem netOf_trialRows (types : List AccountType) :
    netOf types (trialRows chart rows)
      = typeSum chart (fun t l ↦ if t ∈ types then l.debit - l.credit else 0) rows := by
  rw [netOf, sum_map_filter (fun r : TrialBalanceRow ↦ r.account.type ∈ types) (·.balance),
    sum_trialRows _ chart fun a ↦ by simp, typeSum]
  refine congrArg List.sum (map_congr_left fun a _ ↦ ?_)
  by_cases ha : a.type ∈ types
  · simp only [if_pos ha]
    exact (sum_map_sub (fun r : JournalLine × JournalEntry ↦ r.1.debit) (·.1.credit) _).symm
  · simp only [if_neg ha]
    exact List.sum_map_zero.symm

/-! ## When the totals are right

The totals are those as of the date exactly when the later lines do not matter: each of their
amounts is zero, or falls on a total that is `NaN` already. In a journal without `NaN` this means
that no entry is dated later, since `PostEntry` asks for a positive total. When the totals are
right, debits equal credits and the net balances by account type are the figures of the balance
sheet. -/

/-- The figures are the net balances by account type, with revenue and expense in equity. -/
def Grouped (rows : List TrialBalanceRow) (assets liabilities equity : Money) : Prop :=
  assets = netOf [.asset, .contraAsset] rows ∧ liabilities = -netOf [.liability] rows ∧
    equity = -netOf [.equity, .income, .contraIncome, .expense] rows

/-- The trial balance has the totals as of its date, its debits equal its credits, and by account
type it is the balance sheet. -/
structure TrialBalanceLaw (chart : Chart) (db : AccountingDb) (asOf : ℤ) : Prop where
  totals : trialBalance chart db asOf = trialRows chart (booked db asOf)
  balanced : ((trialBalance chart db asOf).map (·.debit)).sum
    = ((trialBalance chart db asOf).map (·.credit)).sum
  figures : Grouped (trialBalance chart db asOf) (bal chart db asOf).assets
    (bal chart db asOf).liabilities ((bal chart db asOf).retained + (bal chart db asOf).netIncome)
  sheet : ∀ b, balanceSheet chart db asOf = .ok b →
    Grouped (trialBalance chart db asOf) b.assets b.liabilities b.equity

/-- Each amount of an entry dated after `asOf` is zero, or falls on a total that is `NaN`
without it. -/
def LaterLinesInert (db : AccountingDb) (asOf : ℤ) : Prop :=
  ∀ e ∈ db.entries, asOf < e.entryDate → ∀ l ∈ linesOf db.lines e.id,
    (l.debit = 0 ∨ accountTotal (·.debit) (booked db asOf) l.accountId = ⊤) ∧
    (l.credit = 0 ∨ accountTotal (·.credit) (booked db asOf) l.accountId = ⊤)
  deriving Decidable

/-- The figures of the balance sheet group the totals as of its date. -/
theorem grouped_bal (chart : Chart) (db : AccountingDb) (asOf : ℤ) :
    Grouped (trialRows chart (booked db asOf))
    (bal chart db asOf).assets (bal chart db asOf).liabilities
    ((bal chart db asOf).retained + (bal chart db asOf).netIncome) := by
  simp only [Grouped, bal, sumCase_reportRows, netOf_trialRows, ← typeSum_neg, ← typeSum_add]
  refine ⟨congrArg (typeSum chart · _) ?_, congrArg (typeSum chart · _) ?_,
    congrArg (typeSum chart · _) ?_⟩
  · funext t l
    cases t <;> rfl
  · funext t l
    cases t <;> simp [liabilityCase]
  · funext t l
    cases t <;> simp [retainedCase, netIncomeCase]

section Inv

variable (hinv : JournalInv chart ok db n)

include hinv

omit hinv in
theorem mem_entryLines :
    r ∈ entryLines db ↔ r.1 ∈ db.lines ∧ r.2 ∈ db.entries ∧ r.2.id = r.1.journalEntryId := by
  simp [entryLines, innerJoin, Prod.ext_iff, and_assoc]

omit hinv in
/-- Non-negative amounts added to a total leave it unchanged if they are zero or it is `NaN`. -/
theorem accountTotal_eq_booked_iff {f : JournalLine → Money} (hf : ∀ l, 0 ≤ f l) (asOf : ℤ)
    (a : Uuid) : accountTotal f (entryLines db) a = accountTotal f (booked db asOf) a ↔
      ∀ r ∈ entryLines db, ¬BookedBy asOf r → r.1.accountId = a →
        f r.1 = 0 ∨ accountTotal f (booked db asOf) a = ⊤ := by
  rw [accountTotal_entryLines f asOf, add_eq_left_iff]
  have hz : accountTotal f ((entryLines db).filter fun r ↦ ¬BookedBy asOf r) a = 0 ↔
      ∀ r ∈ entryLines db, ¬BookedBy asOf r → r.1.accountId = a → f r.1 = 0 := by
    constructor
    · intro hsum r hr hlat hacc
      refine List.all_zero_of_le_zero_le_of_sum_eq_zero (fun x hx ↦ ?_) hsum
        (mem_map_of_mem (mem_filter.mpr
          ⟨mem_filter.mpr ⟨hr, decide_eq_true hlat⟩, decide_eq_true hacc.symm⟩))
      obtain ⟨r, -, rfl⟩ := mem_map.mp hx
      exact hf r.1
    · intro hall
      refine List.sum_eq_zero fun x hx ↦ ?_
      obtain ⟨r, hr, rfl⟩ := mem_map.mp hx
      obtain ⟨hr, hacc⟩ := mem_filter.mp hr
      obtain ⟨hr, hlat⟩ := mem_filter.mp hr
      exact hall r hr (of_decide_eq_true hlat) (of_decide_eq_true hacc).symm
  rw [hz]
  by_cases htop : accountTotal f (booked db asOf) a = ⊤ <;> simp [htop]

theorem not_bookedBy_iff {asOf : ℤ} (hr : r ∈ entryLines db) :
    ¬BookedBy asOf r ↔ asOf < r.2.entryDate := by
  have hbk : r.2.OnBooks := (hinv.status r.2 (mem_entryLines.mp hr).2.1).imp
    (fun h ↦ h.1) fun h ↦ h.1
  rw [BookedBy, not_and, not_le]
  exact ⟨fun h ↦ h hbk, fun h _ ↦ h⟩

/-- The later lines do not matter exactly when no total changes. -/
theorem laterLinesInert_iff (asOf : ℤ) : LaterLinesInert db asOf ↔ ∀ a ∈ chart.accounts,
    accountTotal (·.debit) (entryLines db) a.id = accountTotal (·.debit) (booked db asOf) a.id ∧
    accountTotal (·.credit) (entryLines db) a.id =
      accountTotal (·.credit) (booked db asOf) a.id := by
  constructor
  · intro h a ha
    have hln : ∀ r ∈ entryLines db, ¬BookedBy asOf r → r.1.accountId = a.id →
        (r.1.debit = 0 ∨ accountTotal (·.debit) (booked db asOf) a.id = ⊤) ∧
        (r.1.credit = 0 ∨ accountTotal (·.credit) (booked db asOf) a.id = ⊤) := by
      intro r hr hlat hacc
      obtain ⟨hl, he, hid⟩ := mem_entryLines.mp hr
      rw [← hacc]
      exact h r.2 he ((not_bookedBy_iff hinv hr).mp hlat) r.1
        (mem_filter.mpr ⟨hl, decide_eq_true hid.symm⟩)
    exact ⟨(accountTotal_eq_booked_iff (fun l ↦ l.amounts.1) asOf a.id).mpr
        fun r hr hlat hacc ↦ (hln r hr hlat hacc).1,
      (accountTotal_eq_booked_iff (fun l ↦ l.amounts.2.1) asOf a.id).mpr
        fun r hr hlat hacc ↦ (hln r hr hlat hacc).2⟩
  · intro h e he hdate l hl
    obtain ⟨hl, hid⟩ := mem_filter.mp hl
    have hmem : (l, e) ∈ entryLines db := mem_entryLines.mpr ⟨hl, he, (of_decide_eq_true hid).symm⟩
    have hlat := (not_bookedBy_iff hinv hmem).mpr hdate
    obtain ⟨a, ha, hacc⟩ := hinv.lines.accounts l hl
    rw [← hacc]
    exact ⟨(accountTotal_eq_booked_iff (fun l ↦ l.amounts.1) asOf a.id).mp (h a ha).1 (l, e) hmem
        hlat hacc.symm,
      (accountTotal_eq_booked_iff (fun l ↦ l.amounts.2.1) asOf a.id).mp (h a ha).2 (l, e) hmem
        hlat hacc.symm⟩

private theorem trialBalance_balanced (asOf : ℤ) : ((trialBalance chart db asOf).map (·.debit)).sum
    = ((trialBalance chart db asOf).map (·.credit)).sum := by
  have hmem : ∀ r ∈ entryLines db, r.1 ∈ db.lines := fun r hr ↦ by
    obtain ⟨l, hl, hr⟩ := mem_flatMap.mp hr
    obtain ⟨e, -, rfl⟩ := mem_map.mp hr
    exact hl
  have hall := debits_eq_credits hinv fun _ ↦ True
  simp only [decide_true, List.filter_true] at hall
  rw [trialBalance_eq hinv, sum_trialRows (·.debit) chart fun _ ↦ rfl,
    sum_trialRows (·.credit) chart fun _ ↦ rfl, sum_accountTotal hinv hmem,
    sum_accountTotal hinv hmem, hall]

/-- In a journal that keeps its invariant the law holds exactly when later lines do not matter. -/
theorem trialBalanceLaw_iff (asOf : ℤ) :
    TrialBalanceLaw chart db asOf ↔ LaterLinesInert db asOf := by
  rw [laterLinesInert_iff hinv]
  constructor
  · intro h a ha
    have hrs := h.totals
    rw [trialBalance_eq hinv] at hrs
    exact totals_eq_of_trialRows_eq hrs ha
  · intro h
    have htot : trialBalance chart db asOf = trialRows chart (booked db asOf) := by
      rw [trialBalance_eq hinv]
      refine List.filterMap_congr fun a ha ↦ ?_
      rw [(h a ha).1, (h a ha).2]
    have hgro := grouped_bal chart db asOf
    rw [← htot] at hgro
    refine ⟨htot, trialBalance_balanced hinv asOf, hgro, fun b hb ↦ ?_⟩
    rw [((balanceSheet_eq_ok_iff chart db).mp hb).2]
    exact hgro

end Inv

/-- For every chart, every journal that postings and reversals reach in any interleaving, and every
date, the trial balance is right exactly when the lines dated later do not matter. -/
theorem trialBalanceLaw_iff_laterLinesInert {T : Type} [DecidableEq T] (chart : Chart)
    (periods : List Period) (n : ℕ) (ops : T → Op) {s : State (schema chart) T}
    (hreach : Reach (fun _ _ ↦ True) (openingState chart periods n ops) s) (asOf : ℤ) :
    TrialBalanceLaw chart s.db asOf ↔ LaterLinesInert s.db asOf :=
  trialBalanceLaw_iff (journalInv_of_reach (op_amounts_true ops) hreach).1 asOf

def saleOfDay20 : Unit → Op := fun _ ↦ .journal 0 [smallPost 20 1 3 (.finite 100) false]

/-- The trial balance as of day 10 reports the sale of day 20. -/
theorem not_trialBalanceLaw_of_later_entry :
    ∃ s : State (schema smallChart) Unit,
      Reach (fun _ _ ↦ True) (openingState smallChart [smallPeriod .opened] 1 saleOfDay20) s ∧
      ¬TrialBalanceLaw smallChart s.db 10 := by
  refine exists_and_imp
    (fun s ↦ trialBalance smallChart s.db 10 ≠ trialRows smallChart (booked s.db 10))
    (exists_of_runs (turns [((), 7)]) (by decide +kernel)) ?_
  rintro _ _ hne
  exact fun h ↦ hne h.totals

/-- As of day 31 it is right. -/
theorem trialBalanceLaw_iff_laterLinesInert_month :
    ∃ s : State (schema smallChart) Unit,
      Reach (fun _ _ ↦ True) (openingState smallChart [smallPeriod .opened] 1 saleOfDay20) s ∧
      s.db.lines.length = 2 ∧ TrialBalanceLaw smallChart s.db 31 := by
  refine exists_and_imp (fun s ↦ s.db.lines.length = 2 ∧ LaterLinesInert s.db 31)
    (exists_of_runs (turns [((), 7)]) (by decide +kernel)) ?_
  rintro _ hrch ⟨hlen, hine⟩
  exact ⟨hlen,
    (trialBalanceLaw_iff_laterLinesInert smallChart _ 1 saleOfDay20 hrch 31).mpr hine⟩

end FuelGrid.Accounting
