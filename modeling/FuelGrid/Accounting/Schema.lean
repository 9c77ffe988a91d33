import FuelGrid.Sql.Numeric
import FuelGrid.Sql.Txn

/-!
# The general ledger

The tables and the SQL statements of `internal/accounting`: the chart of accounts, the accounting
periods and the double-entry journal, with the constraints and triggers of the migrations that guard
them. One tenant's rows are modelled.

The chart is a parameter: no modelled function changes it.
-/

namespace FuelGrid.Accounting

open Sql

/-! ## Tables

Amounts are `numeric(14,2)` columns in cents. A caller can bind `NaN` to them, so they are held in
`WithTop ℤ`. The id and the number of an inserted entry are both the machine's stamp. Dates are day
numbers. -/

inductive AccountType where
  | asset | liability | equity | income | expense | contraAsset | contraIncome
  deriving DecidableEq

inductive NormalBalance where
  | debit | credit
  deriving DecidableEq

inductive AccountStatus where
  | active | inactive
  deriving DecidableEq

structure Account where
  id : Uuid
  code : String
  name : String
  type : AccountType
  normalBalance : NormalBalance
  systemKey : Option String
  status : AccountStatus
  deriving DecidableEq

/-- The chart of accounts, listed in the order of the codes. -/
structure Chart where
  accounts : List Account
  /-- The primary key. -/
  ids_nodup : (accounts.map (·.id)).Nodup

inductive PeriodStatus where
  | opened | closing | closed | locked
  deriving DecidableEq

/-- One row of `accounting_periods`. -/
structure Period where
  id : Uuid
  startDate : ℤ
  endDate : ℤ
  status : PeriodStatus
  closedBy : Option Uuid
  closedAt : Option ℤ
  lockedBy : Option Uuid
  lockedAt : Option ℤ
  /-- `chk_period_dates` -/
  dates : startDate ≤ endDate
  deriving DecidableEq

/-- The two date ranges share a day (`accounting_periods_no_overlap`). -/
def Period.Overlaps (p p' : Period) : Prop :=
  p.startDate ≤ p'.endDate ∧ p'.startDate ≤ p.endDate
  deriving Decidable

inductive EntryStatus where
  | draft | posted | reversed
  deriving DecidableEq

structure JournalEntry where
  id : Uuid
  entryNumber : ℕ
  periodId : Uuid
  entryDate : ℤ
  sourceType : String
  sourceId : Option Uuid
  stationId : Option Uuid
  status : EntryStatus
  memo : Option String
  reversesEntryId : Option Uuid
  reversedByEntryId : Option Uuid
  postedBy : Uuid
  postedAt : ℤ
  deriving DecidableEq

structure JournalLine where
  journalEntryId : Uuid
  accountId : Uuid
  debit : Money
  credit : Money
  stationId : Option Uuid
  memo : Option String
  /-- `chk_journal_line_amounts` -/
  amounts : 0 ≤ debit ∧ 0 ≤ credit ∧ ¬(0 < debit ∧ 0 < credit)
  deriving DecidableEq

/-- The committed rows, entries and lines in the order of their commits. -/
structure AccountingDb where
  periods : List Period
  entries : List JournalEntry
  lines : List JournalLine

def linesOf (lines : List JournalLine) (entry : Uuid) : List JournalLine :=
  lines.filter (·.journalEntryId = entry)

/-- `COALESCE(SUM(debit), 0)` -/
def totalDebit (lines : List JournalLine) : Money := (lines.map (·.debit)).sum

/-- `COALESCE(SUM(credit), 0)` -/
def totalCredit (lines : List JournalLine) : Money := (lines.map (·.credit)).sum

/-! ## What callers pass in -/

/-- A line to post. An account is given by its id or by its system key. An amount is the numeric
its text is cast to; `none` is the empty text. The defaults are the zero values of the source. -/
structure PostLine where
  accountId : Option Uuid := none
  systemKey : String
  debit : Option Numeric
  credit : Option Numeric
  stationId : Option Uuid := none
  memo : Option String := none

/-- The empty text counts as zero. -/
def money0 (amount : Option Numeric) : Numeric := amount.getD (.finite 0)

structure PostEntryInput where
  entryDate : ℤ
  sourceType : String
  sourceId : Option Uuid
  stationId : Option Uuid := none
  memo : Option String := none
  postedBy : Uuid
  /-- Adjustments may post into a closed (not locked) period. -/
  allowClosed : Bool := false
  lines : List PostLine

/-- A call of `PostEntry` or `ReverseEntry`. -/
inductive JournalCall where
  | post (input : PostEntryInput)
  | reverse (entry postedBy : Uuid) (memo : Option String)

/-- A reversal may post into a closed period. -/
def JournalCall.allowClosed : JournalCall → Bool
  | .post input => input.allowClosed
  | .reverse _ _ _ => true

/-- An entry as it is returned, with its lines and the total of its debits. -/
structure PostedEntry where
  entry : JournalEntry
  lines : List JournalLine
  total : Money

/-! ## Statements -/

inductive PgError where
  | numericOverflow | checkViolation | foreignKeyViolation | exclusionViolation
  | restrictViolation
  deriving DecidableEq

/-- The values of an entry to insert. -/
structure NewEntry where
  periodId : Uuid
  entryDate : ℤ
  sourceType : String
  sourceId : Option Uuid
  stationId : Option Uuid
  memo : Option String
  postedBy : Uuid
  reversesEntryId : Option Uuid
  postedAt : ℤ

def insertEntry (n : ℕ) (input : NewEntry) : JournalEntry where
  id := n
  entryNumber := n
  periodId := input.periodId
  entryDate := input.entryDate
  sourceType := input.sourceType
  sourceId := input.sourceId
  stationId := input.stationId
  status := .posted
  memo := input.memo
  reversesEntryId := input.reversesEntryId
  reversedByEntryId := none
  postedBy := input.postedBy
  postedAt := input.postedAt

/-- The values of a line to insert. -/
structure NewLine where
  journalEntryId : Uuid
  accountId : Uuid
  debit : Numeric
  credit : Numeric
  stationId : Option Uuid
  memo : Option String

section Statements

variable (chart : Chart)

def insertLine (input : NewLine) : Except PgError JournalLine :=
  match input.debit.store 14 2, input.credit.store 14 2 with
  | some debit, some credit =>
    if amounts : 0 ≤ debit ∧ 0 ≤ credit ∧ ¬(0 < debit ∧ 0 < credit) then
      -- journal_lines_account_fk
      if ∃ a ∈ chart.accounts, a.id = input.accountId then
        .ok {
          journalEntryId := input.journalEntryId
          accountId := input.accountId
          debit
          credit
          stationId := input.stationId
          memo := input.memo
          amounts }
      else .error .foreignKeyViolation
    else .error .checkViolation
  | _, _ => .error .numericOverflow

/-- The line of the reversal: debit and credit are swapped. -/
def JournalLine.swap (rev : Uuid) (l : JournalLine) : JournalLine where
  journalEntryId := rev
  accountId := l.accountId
  debit := l.credit
  credit := l.debit
  stationId := l.stationId
  memo := l.memo
  amounts := ⟨l.amounts.2.1, l.amounts.1, fun h ↦ l.amounts.2.2 h.symm⟩

/-- The annotation of the original entry by the update of `ReverseEntry`. -/
def JournalEntry.markReversed (rev : Uuid) (e : JournalEntry) : JournalEntry :=
  { e with status := .reversed, reversedByEntryId := some rev }

/-- The updates that `assert_journal_entry_immutable` lets through: those of a draft, and the
transition of a posted entry to reversed with every other column unchanged. -/
def UpdateAllowed (old new : JournalEntry) : Prop :=
  old.status = .draft ∨
  (old.status = .posted ∧ new.status = .reversed ∧ old.reversedByEntryId = none ∧
    new.reversedByEntryId ≠ none ∧
    new = { old with status := new.status, reversedByEntryId := new.reversedByEntryId })
  deriving Decidable

/-- `UPDATE journal_entries SET status = 'reversed', …` with its trigger: whether a row is
updated. -/
def markReversed (db : AccountingDb) (orig rev : Uuid) : Except PgError Bool :=
  match db.entries.find? (·.id = orig) with
  | none => .ok false
  | some e => if UpdateAllowed e (e.markReversed rev) then .ok true else .error .restrictViolation

/-- `assert_journal_entry_balanced`, which sums into `numeric(14,2)` variables. -/
def assertBalanced (db : AccountingDb) (entry : Uuid) : Except PgError Unit :=
  match (ofUnits 2 (totalDebit (linesOf db.lines entry))).store 14 2,
      (ofUnits 2 (totalCredit (linesOf db.lines entry))).store 14 2 with
  | some debit, some credit => if debit = credit then .ok () else .error .checkViolation
  | _, _ => .error .numericOverflow

/-- Insert an open period, unless it overlaps another one. -/
def insertPeriod (db : AccountingDb) (n : ℕ) (startDate endDate : ℤ) : Except PgError Period :=
  if dates : startDate ≤ endDate then
    let p : Period := {
      id := n
      startDate
      endDate
      status := .opened
      closedBy := none
      closedAt := none
      lockedBy := none
      lockedAt := none
      dates }
    if ∃ p' ∈ db.periods, p.Overlaps p' then .error .exclusionViolation else .ok p
  else .error .checkViolation

/-- A transition with the actor and the time it is recorded under. -/
structure Transition where
  id : Uuid
  source : PeriodStatus
  target : PeriodStatus
  actorId : Uuid
  now : ℤ

/-- The row that a transition writes. -/
def Transition.apply (t : Transition) (p : Period) : Period :=
  { p with
    status := t.target
    closedBy := if t.target = .closed then some t.actorId else p.closedBy
    closedAt := if t.target = .closed then some t.now else p.closedAt
    lockedBy := if t.target = .locked then some t.actorId else p.lockedBy
    lockedAt := if t.target = .locked then some t.now else p.lockedAt }

/-- The row that a transition selects. -/
def Transition.find (t : Transition) (db : AccountingDb) : Option Period :=
  db.periods.find? fun p ↦ p.id = t.id ∧ p.status = t.source

end Statements

/-- `assert_journal_entry_balanced` on the entries that the transaction has inserted lines for. -/
def deferredBalance (committed view : AccountingDb) : Except PgError Unit :=
  (view.lines.drop committed.lines.length).foldr
    (fun l rest ↦ match assertBalanced view l.journalEntryId with
      | .ok () => rest
      | .error e => .error e) (.ok ())

/-- The statements. The `UPDATE` of a row is two of them with a lock in between: the row is found on
the snapshot of the statement's start and read again under the lock. `getPeriod` runs on another
connection. -/
inductive Query where
  | coveringPeriod (date : ℤ)
  | insertEntry (input : NewEntry)
  | systemAccount (key : String)
  | insertLine (input : NewLine)
  | entryBalanced (entry : Uuid)
  | entryRow (id : Uuid)
  | entryLines (id : Uuid)
  | entryTotal (id : Uuid)
  | insertSwapped (orig rev : Uuid)
  | findEntry (id : Uuid)
  | markReversed (orig rev : Uuid)
  | assertBalanced (entry : Uuid)
  | deferredBalance
  | insertPeriod (startDate endDate : ℤ)
  | findPeriod (t : Transition)
  | transition (t : Transition)
  | getPeriod (id : Uuid)

abbrev Reply : Query → Type
  | .coveringPeriod _ => Option Period
  | .insertEntry _ => JournalEntry
  | .systemAccount _ => Option Uuid
  | .insertLine _ => Except PgError JournalLine
  | .entryBalanced _ => Bool × Money
  | .entryRow _ => Option JournalEntry
  | .entryLines _ => List JournalLine
  | .entryTotal _ => Money
  | .insertSwapped _ _ => Unit
  | .findEntry _ => Bool
  | .markReversed _ _ => Except PgError Bool
  | .assertBalanced _ => Except PgError Unit
  | .deferredBalance => Except PgError Unit
  | .insertPeriod _ _ => Except PgError Period
  | .findPeriod _ => Bool
  | .transition _ => Option Period
  | .getPeriod _ => Option Period

inductive Write where
  | insertEntry (e : JournalEntry)
  | insertLine (l : JournalLine)
  | setReversed (id rev : Uuid)
  | insertPeriod (p : Period)
  | setPeriod (p : Period)
  deriving DecidableEq

def AccountingDb.apply (db : AccountingDb) : Write → AccountingDb
  | .insertEntry e => { db with entries := db.entries ++ [e] }
  | .insertLine l => { db with lines := db.lines ++ [l] }
  | .setReversed id rev =>
    { db with entries := db.entries.map fun e ↦ if e.id = id then e.markReversed rev else e }
  | .insertPeriod p => { db with periods := db.periods ++ [p] }
  | .setPeriod p => { db with periods := db.periods.map fun p' ↦ if p'.id = p.id then p else p' }

/-- Log the annotation of an updated entry. -/
def loggedMark (orig rev : Uuid) : Except PgError Bool → List Write × Except PgError Bool
  | .ok true => ([.setReversed orig rev], .ok true)
  | .ok false => ([], .ok false)
  | .error e => ([], .error e)

def exec (chart : Chart) :
    (q : Query) → (committed view : AccountingDb) → ℕ → List Write × Reply q
  | .coveringPeriod date, _, db, _ =>
    ([], db.periods.find? fun p ↦ p.startDate ≤ date ∧ date ≤ p.endDate)
  | .insertEntry input, _, _, n => ([.insertEntry (insertEntry n input)], insertEntry n input)
  | .systemAccount key, _, _, _ =>
    ([], (chart.accounts.find? fun a ↦ a.systemKey = some key ∧ a.status = .active).map (·.id))
  | .insertLine input, _, _, _ => logged .insertLine (insertLine chart input)
  | .entryBalanced entry, _, db, _ =>
    let debit := totalDebit (linesOf db.lines entry)
    ([], decide (debit = totalCredit (linesOf db.lines entry) ∧ 0 < debit), debit)
  | .entryRow id, _, db, _ => ([], db.entries.find? (·.id = id))
  | .entryLines id, _, db, _ => ([], linesOf db.lines id)
  | .entryTotal id, _, db, _ => ([], totalDebit (linesOf db.lines id))
  | .insertSwapped orig rev, _, db, _ =>
    ((linesOf db.lines orig).map fun l ↦ .insertLine (l.swap rev), ())
  | .findEntry id, _, db, _ => ([], decide (∃ e ∈ db.entries, e.id = id))
  | .markReversed orig rev, _, db, _ => loggedMark orig rev (markReversed db orig rev)
  | .assertBalanced entry, _, db, _ => ([], assertBalanced db entry)
  | .deferredBalance, committed, view, _ => ([], deferredBalance committed view)
  | .insertPeriod startDate endDate, _, db, n =>
    logged .insertPeriod (insertPeriod db n startDate endDate)
  | .findPeriod t, _, db, _ => ([], (t.find db).isSome)
  | .transition t, _, db, _ =>
    (((t.find db).map fun p ↦ Write.setPeriod (t.apply p)).toList, (t.find db).map t.apply)
  | .getPeriod id, committed, _, _ => ([], committed.periods.find? (·.id = id))

/-- What a lock is taken on: the row of an entry or of a period, or the index that keeps periods
from overlapping. -/
inductive LockKey where
  | entry (id : Uuid)
  | period (id : Uuid)
  | periods
  deriving DecidableEq

inductive AccountingError where
  | errNoLines
  | errNoPeriod
  | errPeriodClosed
  | errPeriodLocked
  | errSystemAccount
  | errUnbalanced
  | errEntryNotFound
  | errAlreadyReversed
  | errPeriodNotFound
  | errPeriodTransition
  | errPeriodOverlap
  | pg (e : PgError)
  deriving DecidableEq

/-- What a transaction answers: the entry of each of its calls, or the period it changed. -/
inductive AccountingResult where
  | journal (posted : List (JournalCall × PostedEntry))
  | period (p : Period)

/-- The general ledger as a database of transactions. -/
@[reducible] def schema (chart : Chart) : Schema where
  Db := AccountingDb
  Write := Write
  Query := Query
  Reply := Reply
  Key := LockKey
  Result := AccountingResult
  Error := AccountingError
  apply := AccountingDb.apply
  exec := exec chart

section Replies

variable {chart : Chart} {input : NewLine} {l : JournalLine} {db : AccountingDb}

/-- A line that is inserted has the bound amounts, rounded, and an account of the chart. -/
theorem insertLine_eq_ok (h : insertLine chart input = .ok l) :
    l.journalEntryId = input.journalEntryId ∧ l.accountId = input.accountId ∧
      l.stationId = input.stationId ∧ (∃ a ∈ chart.accounts, a.id = l.accountId) ∧
      input.debit.store 14 2 = some l.debit ∧ input.credit.store 14 2 = some l.credit := by
  simp only [insertLine] at h
  split at h
  next debit credit hdb hcr =>
    split at h
    · split at h
      next hacc =>
        cases h
        exact ⟨rfl, rfl, rfl, hacc, hdb, hcr⟩
      · cases h
    · cases h
  · cases h

/-- The trigger lets an entry through only if its debits equal its credits. -/
theorem assertBalanced_eq_ok {entry : Uuid} (h : assertBalanced db entry = .ok ()) :
    totalDebit (linesOf db.lines entry) = totalCredit (linesOf db.lines entry) := by
  simp only [assertBalanced] at h
  split at h
  next debit credit hdb hcr =>
    split at h
    next heq =>
      rw [← store_ofUnits hdb, ← store_ofUnits hcr, heq]
    · cases h
  · cases h

/-- The update goes through only on a row that is not yet reversed. -/
theorem markReversed_eq_ok {orig rev : Uuid} {updated : Bool}
    (h : markReversed db orig rev = .ok updated) :
    (updated = false ∧ ∀ e ∈ db.entries, e.id ≠ orig) ∨
      (updated = true ∧ ∃ e ∈ db.entries, e.id = orig ∧
        (e.status = .draft ∨ e.status = .posted ∧ e.reversedByEntryId = none)) := by
  simp only [markReversed] at h
  split at h
  next hno =>
    cases h
    exact .inl ⟨rfl, fun e he ↦ by simpa using List.find?_eq_none.mp hno e he⟩
  next e hsm =>
    have hid : e.id = orig := by simpa using find?_some hsm
    split at h
    next hall =>
      cases h
      refine .inr ⟨rfl, e, mem_of_find?_eq_some hsm, hid, ?_⟩
      rcases hall with hdrf | ⟨hpd, -, hno, -⟩
      · exact .inl hdrf
      · exact .inr ⟨hpd, hno⟩
    · cases h

end Replies

end FuelGrid.Accounting
