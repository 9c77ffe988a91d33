import FuelGrid.Accounting.Schema

/-!
# Posting, reversing and the periods

`PostEntry` and `ReverseEntry` run inside the transaction of their caller, which may make several
calls (`handleImportPayables` posts one entry for each payable).
-/

namespace FuelGrid.Accounting

open Sql

variable (chart : Chart)

abbrev Txn := Prog (schema chart)

/-! ## Posting

The period of an entry is resolved by a plain read. Its row is not locked, so a transition of the
period can commit before the entry does. -/

/-- The posting guard on the status of the covering period. -/
def guardPeriod (allowClosed : Bool) (next : Uuid → Txn chart) : Option Period → Txn chart
  | none => .rollback .errNoPeriod
  | some p =>
    match p.status with
    | .locked => .rollback .errPeriodLocked
    | .closed => if allowClosed then next p.id else .rollback .errPeriodClosed
    | .opened | .closing => next p.id

/-- The guard refuses, or goes on with a period that is not locked, and not closed unless that is
allowed. -/
theorem guardPeriod_cases {chart : Chart} {P : Txn chart → Prop} {allowClosed : Bool}
    {next : Uuid → Txn chart} (found : Option Period)
    (hno : found = none → P (.rollback .errNoPeriod)) (hlck : P (.rollback .errPeriodLocked))
    (hcl : P (.rollback .errPeriodClosed))
    (hnx : ∀ p ∈ found, p.status ≠ .locked → (p.status = .closed → allowClosed) → P (next p.id)) :
    P (guardPeriod chart allowClosed next found) := by
  cases found with
  | none => exact hno rfl
  | some p =>
    have hnx := hnx p rfl
    cases hst : p.status <;> simp only [guardPeriod, hst] at hnx ⊢
    case locked => exact hlck
    case closed =>
      split
      next hall => exact hnx nofun fun _ ↦ hall
      · exact hcl
    all_goals exact hnx nofun nofun

def resolvePostingPeriod (date : ℤ) (allowClosed : Bool) (next : Uuid → Txn chart) : Txn chart :=
  .query (.coveringPeriod date) (guardPeriod chart allowClosed next)

/-- `resolveSystemAccount`, for a line without an account id. -/
def resolveAccount (ln : PostLine) (next : Uuid → Txn chart) : Txn chart :=
  match ln.accountId with
  | some id => next id
  | none => .query (.systemAccount ln.systemKey) fun
    | none => .rollback .errSystemAccount
    | some id => next id

/-- Go on with the inserted line. -/
def answerLine (next : JournalLine → Txn chart) : Except PgError JournalLine → Txn chart
  | .error e => .rollback (.pg e)
  | .ok l => next l

/-- The loop of `PostEntry` over its lines. -/
def postLines (entry : Uuid) :
    List PostLine → List JournalLine → (List JournalLine → Txn chart) → Txn chart
  | [], posted, next => next posted
  | ln :: lns, posted, next =>
    resolveAccount chart ln fun accountId ↦
      .query (.insertLine {
          journalEntryId := entry
          accountId
          debit := money0 ln.debit
          credit := money0 ln.credit
          stationId := ln.stationId
          memo := ln.memo })
        (answerLine chart fun l ↦ postLines entry lns (posted ++ [l]) next)

/-- The entry that `PostEntry` inserts. -/
def PostEntryInput.newEntry (input : PostEntryInput) (periodId : Uuid) (now : ℤ) : NewEntry where
  periodId := periodId
  entryDate := input.entryDate
  sourceType := input.sourceType
  sourceId := input.sourceId
  stationId := input.stationId
  memo := input.memo
  postedBy := input.postedBy
  reversesEntryId := none
  postedAt := now

def answerPosted (next : PostedEntry → Txn chart) (entry : JournalEntry)
    (lines : List JournalLine) (reply : Bool × Money) : Txn chart :=
  if reply.1 then next ⟨entry, lines, reply.2⟩ else .rollback .errUnbalanced

def postEntry (input : PostEntryInput) (now : ℤ) (next : PostedEntry → Txn chart) : Txn chart :=
  if input.lines = [] then .rollback .errNoLines
  else resolvePostingPeriod chart input.entryDate input.allowClosed fun periodId ↦
    .query (.insertEntry (input.newEntry periodId now)) fun e ↦
      postLines chart e.id input.lines [] fun lines ↦
        .query (.entryBalanced e.id) (answerPosted chart next e lines)

/-! ## Reversing -/

def getEntry (id : Uuid) (next : PostedEntry → Txn chart) : Txn chart :=
  .query (.entryRow id) fun
    | none => .rollback .errEntryNotFound
    | some e => .query (.entryLines id) fun lines ↦ .query (.entryTotal id) fun total ↦
        next ⟨e, lines, total⟩

/-- The entry that `ReverseEntry` inserts. -/
def JournalEntry.reversal (orig : JournalEntry) (periodId postedBy : Uuid) (memo : Option String)
    (now : ℤ) : NewEntry where
  periodId := periodId
  entryDate := orig.entryDate
  sourceType := "reversal"
  sourceId := some orig.id
  stationId := orig.stationId
  memo := memo
  postedBy := postedBy
  reversesEntryId := some orig.id
  postedAt := now

/-- Go on after the update of the original entry, unless its trigger refused it. -/
def answerMark (next : Txn chart) : Except PgError Bool → Txn chart
  | .error e => .rollback (.pg e)
  | .ok _ => next

def updateReversed (orig rev : Uuid) (next : Txn chart) : Txn chart :=
  .query (.findEntry orig) fun (found : Bool) ↦
    if found then
      .lock (.entry orig) <| .query (.markReversed orig rev) (answerMark chart next)
    else next

def reverseEntry (entry postedBy : Uuid) (memo : Option String) (now : ℤ)
    (next : PostedEntry → Txn chart) : Txn chart :=
  getEntry chart entry fun orig ↦
    if orig.entry.status ≠ .posted then .rollback .errAlreadyReversed
    else resolvePostingPeriod chart orig.entry.entryDate true fun periodId ↦
      .query (.insertEntry (orig.entry.reversal periodId postedBy memo now)) fun rev ↦
        .query (.insertSwapped orig.entry.id rev.id) fun _ ↦
          updateReversed chart orig.entry.id rev.id (getEntry chart rev.id next)

/-! ## Transactions

A transaction is a list of calls, which are therefore written with a continuation. Its commit first
runs the deferred trigger that checks the balance of the entries whose lines were inserted. -/

def JournalCall.prog (now : ℤ) (next : PostedEntry → Txn chart) : JournalCall → Txn chart
  | .post input => postEntry chart input now next
  | .reverse entry postedBy memo => reverseEntry chart entry postedBy memo now next

/-- Go on unless the deferred trigger raised. -/
def answerBalanced (next : Txn chart) : Except PgError Unit → Txn chart
  | .error e => .rollback (.pg e)
  | .ok () => next

/-- The deferred trigger on the lines of the entries, then `next`. -/
def deferred (next : Txn chart) : List Uuid → Txn chart
  | [] => next
  | entry :: entries =>
    .query (.assertBalanced entry) (answerBalanced chart (deferred next entries))

def journalTxn (now : ℤ) : List JournalCall → List (JournalCall × PostedEntry) → Txn chart
  | [], posted => deferred chart (.commit (.journal posted)) (posted.map (·.2.entry.id))
  | call :: calls, posted =>
    call.prog chart now fun p ↦ journalTxn now calls (posted ++ [(call, p)])

/-! ## Periods -/

def answerNewPeriod : Except PgError Period → Txn chart
  | .error .exclusionViolation => .rollback .errPeriodOverlap
  | .error e => .rollback (.pg e)
  | .ok p => .commit (.period p)

def createPeriod (startDate endDate : ℤ) : Txn chart :=
  .lock .periods <| .query (.insertPeriod startDate endDate) (answerNewPeriod chart)

/-- Tell a missing period from one in another state. -/
def refuseTransition (id : Uuid) : Txn chart :=
  .query (.getPeriod id) fun
    | none => .rollback .errPeriodNotFound
    | some _ => .rollback .errPeriodTransition

def answerPeriod (id : Uuid) : Option Period → Txn chart
  | none => refuseTransition chart id
  | some p => .commit (.period p)

def transition (t : Transition) : Txn chart :=
  .query (.findPeriod t) fun (found : Bool) ↦
    if found then .lock (.period t.id) <| .query (.transition t) (answerPeriod chart t.id)
    else refuseTransition chart t.id

/-- The allowed edges of the period's lifecycle. -/
inductive PeriodEdge where
  | startClose | closePeriod | reopenPeriod | lockPeriod

def PeriodEdge.source : PeriodEdge → PeriodStatus
  | .startClose => .opened
  | .closePeriod => .closing
  | .reopenPeriod => .closed
  | .lockPeriod => .closed

def PeriodEdge.target : PeriodEdge → PeriodStatus
  | .startClose => .closing
  | .closePeriod => .closed
  | .reopenPeriod => .opened
  | .lockPeriod => .locked

/-- The transactions on the general ledger. -/
inductive Op where
  | journal (now : ℤ) (calls : List JournalCall)
  | createPeriod (startDate endDate : ℤ)
  | transition (edge : PeriodEdge) (id actorId : Uuid) (now : ℤ)

def Op.prog : Op → Txn chart
  | .journal now calls => journalTxn chart now calls []
  | .createPeriod startDate endDate => Accounting.createPeriod chart startDate endDate
  | .transition edge id actorId now =>
    Accounting.transition chart ⟨id, edge.source, edge.target, actorId, now⟩

/-- Cash, sales and bank. -/
def smallChart : Chart where
  accounts := [
    ⟨1, "1000", "Cash", .asset, .debit, some "cash_on_hand", .active⟩,
    ⟨2, "1100", "Bank", .asset, .debit, some "bank", .active⟩,
    ⟨3, "4000", "Sales", .income, .credit, some "sales_revenue", .active⟩]
  ids_nodup := by decide

def smallPeriod (status : PeriodStatus) : Period where
  id := 0
  startDate := 1
  endDate := 31
  status := status
  closedBy := none
  closedAt := none
  lockedBy := none
  lockedAt := none
  dates := by decide

def smallPost (date : ℤ) (debited credited : Uuid) (amount : Numeric) (allowClosed : Bool) :
    JournalCall :=
  .post {
    entryDate := date
    sourceType := "adjustment"
    sourceId := none
    postedBy := 0
    allowClosed
    lines := [⟨some debited, "", some amount, none, none, none⟩,
      ⟨some credited, "", none, some amount, none, none⟩] }

end FuelGrid.Accounting
