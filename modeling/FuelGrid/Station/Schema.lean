import FuelGrid.Sql.Embed
import FuelGrid.Forecourt.Handlers

/-!
# Operating days, cash and shift approval

The tables and the SQL statements of `internal/operations` around a shift: the operating day it
belongs to, the cash submission of its attendants, the collection receipt of the supervisor, the
exceptions on it, and its approval. The readings and close lines are those of the forecourt, which
sits in this database as a part (`forecourtPart`).
-/

namespace FuelGrid.Station

open Sql Forecourt

/-! ## The environment

What the statements of other modules answer (the setup check, the rota, the posting of sales to the
stock ledger and to revenue) is a parameter of the environment: it may differ from call to call, and
the stamp tells the calls apart. -/

inductive StationPermission where
  | cashSubmit | cashOverride | cashConfirm | shiftApprove | manageDay

inductive Slot where
  | morning | evening

/-- `ScheduledTeamFor`: the members of the team are given by their login accounts. -/
inductive ScheduledTeam where
  | stationNotFound
  | noTeam
  | team (members : List (Option Uuid))

structure StationEnv where
  forecourt : Env
  /-- The policy engine: whether a user has a permission at a station. -/
  can : Uuid → StationPermission → Uuid → Bool
  isSystemAdmin : Uuid → Bool
  openShiftBlockers : (station : Uuid) → ℕ → List String
  scheduledTeamFor : (station : Uuid) → (businessDate : ℤ) → Slot → ℕ → ScheduledTeam
  /-- Whether the sales of a shift reach the stock ledger without an error. -/
  postShiftSales : (shift : Uuid) → ℕ → Bool
  /-- Whether the revenue of a shift is recognized without an error. -/
  recognizeShiftRevenue : (shift : Uuid) → ℕ → Bool

/-! ## Tables

Money is `numeric(14,2)` in cents. The column `operating_day_id` of a shift is kept apart from the
forecourt's row. -/

inductive DayStatus where
  | opened | closed | locked
  deriving DecidableEq

structure OperatingDay where
  id : Uuid
  stationId : Uuid
  businessDate : ℤ
  status : DayStatus
  closedBy : Option Uuid
  closedAt : Option ℤ
  lockedBy : Option Uuid
  lockedAt : Option ℤ

structure CashSubmission where
  id : Uuid
  shiftId : Uuid
  expectedCash : ℤ
  cashAmount : ℤ
  mobileMoneyAmount : ℤ
  cardAmount : ℤ
  creditAmount : ℤ
  submittedTotal : ℤ
  variance : ℤ
  submittedBy : Uuid
  notes : Option String

inductive ReceiptStatus where
  | received | approvedWithDifference | rejected | flagged
  deriving DecidableEq

/-- A receipt that can still be decided again. -/
def ReceiptStatus.Hold (s : ReceiptStatus) : Prop := s = .rejected ∨ s = .flagged
  deriving Decidable

structure CollectionReceipt where
  id : Uuid
  shiftId : Uuid
  cashSubmissionId : Uuid
  expectedAmount : ℤ
  attendantSubmittedTotal : ℤ
  supervisorReceivedTotal : ℤ
  difference : ℤ
  status : ReceiptStatus
  reason : Option String
  receivedBy : Uuid
  /-- `chk_collection_receipts_difference` -/
  agrees : status.Hold ∨ (status = .received ∧ difference = 0) ∨
    (status = .approvedWithDifference ∧ difference ≠ 0)
  /-- `chk_collection_receipts_reason` -/
  reasoned : (difference = 0 ∧ status = .received) ∨ reason ≠ none
  /-- `chk_collection_receipts_difference_math` -/
  math : difference = supervisorReceivedTotal - expectedAmount

inductive ExceptionType where
  | missingReading | cashVariance | meterRollback | lateClose | other

inductive Severity where
  | low | medium | high | critical

inductive ExceptionStatus where
  | opened | resolved
  deriving DecidableEq

structure ShiftException where
  id : Uuid
  shiftId : Uuid
  type : ExceptionType
  severity : Severity
  detail : Option String
  status : ExceptionStatus
  resolvedBy : Option Uuid

structure StationDb where
  forecourt : ShiftDb
  days : List OperatingDay
  /-- `operating_day_id`: a shift and its day. -/
  dayOf : List (Uuid × Uuid)
  submissions : List CashSubmission
  receipts : List CollectionReceipt
  exceptions : List ShiftException

/-! ## Statements on days and shifts -/

def shiftsOfDay (db : StationDb) (day : Uuid) : List Shift :=
  db.forecourt.shifts.filter fun s ↦ (s.id, day) ∈ db.dayOf

/-- `OpenShiftCountForDay` -/
def openShiftCount (db : StationDb) (day : Uuid) : ℕ :=
  (shiftsOfDay db day).countP (·.status = .opened)

/-- `UnapprovedShiftCountForDay` -/
def unapprovedShiftCount (db : StationDb) (day : Uuid) : ℕ :=
  (shiftsOfDay db day).countP (·.status ≠ .approved)

/-- `ClosedUnapprovedShiftIDsForStation`; the order is that of a response only. -/
def closedUnapprovedShiftIds (db : StationDb) (station : Uuid) : List Uuid :=
  (db.forecourt.shifts.filter fun s ↦ s.stationId = station ∧ s.status = .closed).map (·.id)

/-- The row that `SetStatus` writes. -/
def OperatingDay.setStatus (d : OperatingDay) (status : DayStatus) (actor : Uuid) (now : ℤ) :
    OperatingDay :=
  { d with
    status
    closedBy := if status = .closed then some actor else none
    closedAt := if status = .closed then some now else none }

/-- The row that `Lock` writes. -/
def OperatingDay.lock (d : OperatingDay) (actor : Uuid) (now : ℤ) : OperatingDay :=
  { d with status := .locked, lockedBy := some actor, lockedAt := some now }

/-- The row that `ApproveShift` writes. -/
def approve (s : Shift) : Shift := { s with status := .approved }

/-- `ClosingVerificationGateCounts`: the active closings without a verification, and those that a
rejection or a flag holds. -/
def closingVerificationGateCounts (db : ShiftDb) (shift : Uuid) : ℕ × ℕ × ℕ :=
  let active := db.readings.filter fun m ↦
    m.shiftId = shift ∧ m.readingType = .closing ∧ m.status = .active
  let joined := active.flatMap fun m ↦ db.verifications.filter (·.readingId = m.id)
  (active.countP fun m ↦ ¬∃ v ∈ db.verifications, v.readingId = m.id,
    joined.countP (·.status = .rejected), joined.countP (·.status = .flagged))

/-! ## Statements on cash and exceptions -/

structure CashSubmissionInput where
  shiftId : Uuid
  expectedCash : ℚ
  cashAmount : ℚ
  mobileMoneyAmount : ℚ
  cardAmount : ℚ
  creditAmount : ℚ
  submittedBy : Uuid
  notes : Option String

def CashSubmissionInput.total (input : CashSubmissionInput) : ℚ :=
  input.cashAmount + input.mobileMoneyAmount + input.cardAmount + input.creditAmount

/-- The row with the total and the variance that the insert computes from the input; `none` if one
of the figures does not fit. -/
def CashSubmissionInput.row (input : CashSubmissionInput) (id : Uuid) : Option CashSubmission := do
  let expectedCash ← store 14 2 input.expectedCash
  let cashAmount ← store 14 2 input.cashAmount
  let mobileMoneyAmount ← store 14 2 input.mobileMoneyAmount
  let cardAmount ← store 14 2 input.cardAmount
  let creditAmount ← store 14 2 input.creditAmount
  let submittedTotal ← store 14 2 input.total
  let variance ← store 14 2 (input.total - input.expectedCash)
  return ⟨id, input.shiftId, expectedCash, cashAmount, mobileMoneyAmount, cardAmount, creditAmount,
    submittedTotal, variance, input.submittedBy, input.notes⟩

/-- `InsertCashSubmission`: a shift has at most one. -/
def insertCashSubmission (db : StationDb) (n : ℕ) (input : CashSubmissionInput) :
    Except PgError CashSubmission :=
  match input.row n with
  | none => .error .numericOverflow
  | some c =>
    if ∃ c' ∈ db.submissions, c'.shiftId = input.shiftId then .error .uniqueViolation else .ok c

def getCashSubmission (db : StationDb) (shift : Uuid) : Option CashSubmission :=
  db.submissions.find? (·.shiftId = shift)

structure CollectionReceiptInput where
  shiftId : Uuid
  cashSubmissionId : Uuid
  expectedAmount : ℚ
  attendantSubmittedTotal : ℚ
  supervisorReceivedTotal : ℚ
  status : ReceiptStatus
  reason : Option String
  receivedBy : Uuid

/-- The figures as the columns store them; `none` if one of them does not fit. -/
def CollectionReceiptInput.figures (input : CollectionReceiptInput) : Option (ℤ × ℤ × ℤ × ℤ) := do
  let expected ← store 14 2 input.expectedAmount
  let submitted ← store 14 2 input.attendantSubmittedTotal
  let received ← store 14 2 input.supervisorReceivedTotal
  let difference ← store 14 2 (input.supervisorReceivedTotal - input.expectedAmount)
  return (expected, submitted, received, difference)

/-- The row with the input's values, if the table's constraints admit it. -/
def CollectionReceiptInput.row (input : CollectionReceiptInput) (id : Uuid) :
    Except PgError CollectionReceipt :=
  match input.figures with
  | none => .error .numericOverflow
  | some (expected, submitted, received, difference) =>
    if agrees : input.status.Hold ∨ (input.status = .received ∧ difference = 0) ∨
        (input.status = .approvedWithDifference ∧ difference ≠ 0) then
      if reasoned : (difference = 0 ∧ input.status = .received) ∨ input.reason ≠ none then
        if math : difference = received - expected then
          .ok {
            id
            shiftId := input.shiftId
            cashSubmissionId := input.cashSubmissionId
            expectedAmount := expected
            attendantSubmittedTotal := submitted
            supervisorReceivedTotal := received
            difference
            status := input.status
            reason := input.reason
            receivedBy := input.receivedBy
            agrees
            reasoned
            math }
        else .error .checkViolation
      else .error .checkViolation
    else .error .checkViolation

/-- `InsertCollectionReceipt`: a submission has at most one. -/
def insertCollectionReceipt (db : StationDb) (n : ℕ) (input : CollectionReceiptInput) :
    Except PgError CollectionReceipt :=
  match input.row n with
  | .error e => .error e
  | .ok c =>
    if ∃ c' ∈ db.receipts, c'.cashSubmissionId = input.cashSubmissionId then .error .uniqueViolation
    else .ok c

/-- The hold that `ReplaceHeldCollectionReceipt` selects. -/
def findHeldReceipt (db : StationDb) (submission : Uuid) : Option CollectionReceipt :=
  db.receipts.find? fun c ↦ c.cashSubmissionId = submission ∧ c.status.Hold

/-- `ReplaceHeldCollectionReceipt`; no row is `ErrTerminalReceipt`. -/
def replaceHeldReceipt (db : StationDb) (input : CollectionReceiptInput) :
    Except PgError (Option CollectionReceipt) :=
  match findHeldReceipt db input.cashSubmissionId with
  | none => .ok none
  | some held => (input.row held.id).map some

def cashSubmissionAwaitingReceipt (db : StationDb) (shift : Uuid) : Bool :=
  decide (∃ c ∈ db.submissions, c.shiftId = shift ∧ ¬∃ r ∈ db.receipts,
    r.cashSubmissionId = c.id ∧ (r.status = .received ∨ r.status = .approvedWithDifference))

/-- `OpenExceptionCountForShift` -/
def openExceptionCount (db : StationDb) (shift : Uuid) : ℕ :=
  db.exceptions.countP fun e ↦ e.shiftId = shift ∧ e.status = .opened

/-- The open exception that `ResolveException` selects. -/
def findOpenException (db : StationDb) (id : Uuid) : Option ShiftException :=
  db.exceptions.find? fun e ↦ e.id = id ∧ e.status = .opened

/-- The row that `ResolveException` writes. -/
def ShiftException.resolve (e : ShiftException) (actor : Uuid) : ShiftException :=
  { e with status := .resolved, resolvedBy := some actor }

/-! ## The database -/

/-- The statements. An `UPDATE` of a row is two of them with a lock in between, unless the row is
already locked. -/
inductive Query where
  | forecourt (q : Forecourt.Query)
  | getDay (id : Uuid)
  | dayStatus (id : Uuid)
  | shiftStatus (id : Uuid)
  | openShiftBlockers (station : Uuid)
  | scheduledTeamFor (station : Uuid) (businessDate : ℤ) (slot : Slot)
  | closedUnapprovedShiftIds (station : Uuid)
  | openShift (station day : Uuid) (openedAt : ℤ)
  | assignAttendant (shift user : Uuid)
  | openShiftCount (day : Uuid)
  | unapprovedShiftCount (day : Uuid)
  | setStatus (day : Uuid) (status : DayStatus) (actor : Uuid) (now : ℤ)
  | lockDay (day actor : Uuid) (now : ℤ)
  | openExceptionCount (shift : Uuid)
  | closingVerificationGateCounts (shift : Uuid)
  | cashSubmissionAwaitingReceipt (shift : Uuid)
  | approveShift (id : Uuid)
  | postShiftSales (shift : Uuid)
  | recognizeShiftRevenue (shift : Uuid)
  | insertCashSubmission (input : CashSubmissionInput)
  | getCashSubmission (shift : Uuid)
  | raiseException (shift : Uuid) (type : ExceptionType) (severity : Severity) (detail : String)
  | insertCollectionReceipt (input : CollectionReceiptInput)
  | findHeldReceipt (submission : Uuid)
  | replaceHeldReceipt (input : CollectionReceiptInput)
  | getException (id : Uuid)
  | findOpenException (id : Uuid)
  | resolveException (id actor : Uuid)

abbrev Reply : Query → Type
  | .forecourt q => Forecourt.Reply q
  | .getDay _ => Option OperatingDay
  | .dayStatus _ => Option DayStatus
  | .shiftStatus _ => Option ShiftStatus
  | .openShiftBlockers _ => List String
  | .scheduledTeamFor _ _ _ => ScheduledTeam
  | .closedUnapprovedShiftIds _ => List Uuid
  | .openShift _ _ _ => Shift
  | .assignAttendant _ _ => Bool
  | .openShiftCount _ => ℕ
  | .unapprovedShiftCount _ => ℕ
  | .setStatus _ _ _ _ => Option OperatingDay
  | .lockDay _ _ _ => Option OperatingDay
  | .openExceptionCount _ => ℕ
  | .closingVerificationGateCounts _ => ℕ × ℕ × ℕ
  | .cashSubmissionAwaitingReceipt _ => Bool
  | .approveShift _ => Option Shift
  | .postShiftSales _ => Bool
  | .recognizeShiftRevenue _ => Bool
  | .insertCashSubmission _ => Except PgError CashSubmission
  | .getCashSubmission _ => Option CashSubmission
  | .raiseException _ _ _ _ => ShiftException
  | .insertCollectionReceipt _ => Except PgError CollectionReceipt
  | .findHeldReceipt _ => Bool
  | .replaceHeldReceipt _ => Except PgError (Option CollectionReceipt)
  | .getException _ => Option ShiftException
  | .findOpenException _ => Bool
  | .resolveException _ _ => Option ShiftException

inductive Write where
  | forecourt (w : Forecourt.Write)
  | assignAttendant (shift user : Uuid)
  | setDayOf (shift day : Uuid)
  | setDay (d : OperatingDay)
  | insertSubmission (c : CashSubmission)
  | insertReceipt (r : CollectionReceipt)
  | setReceipt (r : CollectionReceipt)
  | insertException (e : ShiftException)
  | setException (e : ShiftException)

def addAttendant (db : ShiftDb) (shift user : Uuid) : ShiftDb :=
  { db with
    fixtures := { db.fixtures with attendants := db.fixtures.attendants ++ [(shift, user)] } }

def StationDb.apply (db : StationDb) : Write → StationDb
  | .forecourt w => { db with forecourt := db.forecourt.apply w }
  | .assignAttendant shift user => { db with forecourt := addAttendant db.forecourt shift user }
  | .setDayOf shift day => { db with dayOf := db.dayOf ++ [(shift, day)] }
  | .setDay d => { db with days := db.days.map fun d' ↦ if d'.id = d.id then d else d' }
  | .insertSubmission c => { db with submissions := db.submissions ++ [c] }
  | .insertReceipt r => { db with receipts := db.receipts ++ [r] }
  | .setReceipt r =>
    { db with receipts := db.receipts.map fun r' ↦
        if r'.cashSubmissionId = r.cashSubmissionId then r else r' }
  | .insertException e => { db with exceptions := db.exceptions ++ [e] }
  | .setException e =>
    { db with exceptions := db.exceptions.map fun e' ↦ if e'.id = e.id then e else e' }

def exec (env : StationEnv) : (q : Query) → (committed view : StationDb) → ℕ → List Write × Reply q
  | .forecourt q, committed, db, n =>
    let out := Forecourt.exec env.forecourt q committed.forecourt db.forecourt n
    (out.1.map .forecourt, out.2)
  | .getDay id, _, db, _ => ([], db.days.find? (·.id = id))
  | .dayStatus id, _, db, _ => ([], (db.days.find? (·.id = id)).map (·.status))
  | .shiftStatus id, _, db, _ => ([], (db.forecourt.shifts.find? (·.id = id)).map (·.status))
  | .openShiftBlockers station, _, _, n => ([], env.openShiftBlockers station n)
  | .scheduledTeamFor station businessDate slot, _, _, n =>
    ([], env.scheduledTeamFor station businessDate slot n)
  | .closedUnapprovedShiftIds station, _, db, _ => ([], closedUnapprovedShiftIds db station)
  | .openShift station day openedAt, _, _, n =>
    let shift : Shift := ⟨n, station, .opened, openedAt, none, none⟩
    ([.forecourt (.insertShift shift), .setDayOf n day], shift)
  | .assignAttendant shift user, _, db, _ =>
    if (shift, user) ∈ db.forecourt.fixtures.attendants then ([], false)
    else ([.assignAttendant shift user], true)
  | .openShiftCount day, _, db, _ => ([], openShiftCount db day)
  | .unapprovedShiftCount day, _, db, _ => ([], unapprovedShiftCount db day)
  | .setStatus day status actor now, _, db, _ =>
    loggedUpdate .setDay ((db.days.find? (·.id = day)).map (·.setStatus status actor now))
  | .lockDay day actor now, _, db, _ =>
    loggedUpdate .setDay ((db.days.find? (·.id = day)).map (·.lock actor now))
  | .openExceptionCount shift, _, db, _ => ([], openExceptionCount db shift)
  | .closingVerificationGateCounts shift, _, db, _ =>
    ([], closingVerificationGateCounts db.forecourt shift)
  | .cashSubmissionAwaitingReceipt shift, _, db, _ => ([], cashSubmissionAwaitingReceipt db shift)
  | .approveShift id, _, db, _ =>
    loggedUpdate (fun s ↦ .forecourt (.setShift s))
      ((db.forecourt.shifts.find? (·.id = id)).map approve)
  | .postShiftSales shift, _, _, n => ([], env.postShiftSales shift n)
  | .recognizeShiftRevenue shift, _, _, n => ([], env.recognizeShiftRevenue shift n)
  | .insertCashSubmission input, _, db, n =>
    logged .insertSubmission (insertCashSubmission db n input)
  | .getCashSubmission shift, _, db, _ => ([], getCashSubmission db shift)
  | .raiseException shift type severity detail, _, _, n =>
    let e : ShiftException := ⟨n, shift, type, severity, some detail, .opened, none⟩
    ([.insertException e], e)
  | .insertCollectionReceipt input, _, db, n =>
    logged .insertReceipt (insertCollectionReceipt db n input)
  | .findHeldReceipt submission, _, db, _ => ([], (findHeldReceipt db submission).isSome)
  | .replaceHeldReceipt input, _, db, _ => loggedRow .setReceipt (replaceHeldReceipt db input)
  | .getException id, _, db, _ => ([], db.exceptions.find? (·.id = id))
  | .findOpenException id, _, db, _ => ([], (findOpenException db id).isSome)
  | .resolveException id actor, _, db, _ =>
    loggedUpdate .setException ((findOpenException db id).map (·.resolve actor))

/-- What a lock is taken on: a row, a row in shared mode, or the key of a unique index. -/
inductive LockKey where
  | forecourt (k : Forecourt.LockKey)
  | shiftShare (id : Uuid)
  | day (id : Uuid)
  | dayShare (id : Uuid)
  | submission (shift : Uuid)
  | receipt (submission : Uuid)
  | exception (id : Uuid)
  deriving DecidableEq

/-- The rows that are locked `FOR SHARE`. -/
def LockKey.shares : LockKey → Option LockKey
  | .shiftShare id => some (.forecourt (.shift id))
  | .dayShare id => some (.day id)
  | _ => none

theorem LockKey.shares_inj (k1 k2 k : LockKey) (h1 : k1.shares = some k) (h2 : k2.shares = some k) :
    k1 = k2 := by
  rcases k1 with _ | id1 | _ | id1 | _ | _ | _ <;> cases h1 <;>
    rcases k2 with _ | id2 | _ | id2 | _ | _ | _ <;> cases h2 <;> rfl

/-- The refusals, as the response states them. -/
inductive StationError where
  | shift (e : ShiftError)
  | readingsPending (error code : String) (count : ℕ)
  | setupIncomplete (blockers : List String)
  | priorShiftUnapproved (unapprovedShiftIds : List Uuid)

inductive StationResult where
  | shift (r : ShiftResult)
  | opened (s : Shift)
  | approved (s : Shift)
  | day (d : OperatingDay)
  | submission (c : CashSubmission)
  | receipt (r : CollectionReceipt)
  | exception (e : ShiftException)

/-- The station as a database of transactions. -/
@[reducible] def schema (env : StationEnv) : Schema where
  Db := StationDb
  Write := Write
  Query := Query
  Reply := Reply
  Key := LockKey
  Result := StationResult
  Error := StationError
  shares := LockKey.shares
  shares_inj := LockKey.shares_inj
  apply := StationDb.apply
  exec := exec env

def forecourtPart (env : StationEnv) : Part (Forecourt.schema env.forecourt) (schema env) where
  part := StationDb.forecourt
  put db x := { db with forecourt := x }
  write := .forecourt
  query := .forecourt
  reply _ r := r
  key := .forecourt
  result := .shift
  error := .shift
  put_part _ := rfl
  part_put _ _ := rfl
  put_put _ _ _ := rfl
  key_inj _ _ h := LockKey.forecourt.inj h
  apply_write _ _ := rfl
  exec_writes _ _ _ _ := rfl
  exec_reply _ _ _ _ := rfl

instance : Refusals (schema env) := ⟨fun status error ↦ .shift (.http status error)⟩

end FuelGrid.Station
