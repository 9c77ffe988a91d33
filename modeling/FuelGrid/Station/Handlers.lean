import FuelGrid.Station.Schema
import FuelGrid.Forecourt.CloseLines

/-!
# The handlers of a station's day

Opening and approving a shift (`shifts_handlers.go`, `shift_exceptions_handlers.go`), submitting and
confirming its cash (`shift_close_handlers.go`, `collection_receipts_handlers.go`), and the status
of the operating day (`operating_days_handlers.go`), each as one program. As in the forecourt, a
handler first reads on the pool and opens its transaction later.

A request's body has been decoded, its reason is trimmed, and its audit record and notifications are
left out.
-/

namespace FuelGrid.Station

open Sql Forecourt

variable (env : StationEnv)

abbrev Txn := Prog (schema env)

/-! ## Who may write -/

def authorizeStation (actor : Uuid) (perm : StationPermission) (station : Uuid) (next : Txn env) :
    Txn env :=
  if env.can actor perm station then next else refuse 403 "forbidden"

/-- `shiftForWrite` for a shift that need not be open. -/
def shiftForWrite (actor shift : Uuid) (perm : StationPermission) (next : Shift → Txn env) :
    Txn env :=
  .query (.forecourt (.getShift shift)) fun
    | none => refuse 404 "shift not found"
    | some (s : Shift) => authorizeStation env actor perm s.stationId (next s)

/-- `shiftForScopedWrite` for a shift that need not be open: the flag says whether the actor has the
override permission. -/
def shiftForScopedWrite (actor shift : Uuid) (basePerm overridePerm : StationPermission)
    (next : Shift → Bool → Txn env) : Txn env :=
  .query (.forecourt (.getShift shift)) fun
    | none => refuse 404 "shift not found"
    | some (s : Shift) =>
      if env.can actor overridePerm s.stationId then next s true
      else if env.can actor basePerm s.stationId then
        .query (.forecourt (.isAttendantOnShift s.id actor)) fun (onShift : Bool) ↦
          if onShift then next s false else refuse 403 "you are not assigned to this shift"
      else refuse 403 "forbidden"

def lockShiftStatusForShare (shift : Uuid) (next : Option ShiftStatus → Txn env) : Txn env :=
  .lock (.shiftShare shift) <| .query (.shiftStatus shift) next

/-! ## Cash -/

/-- A figure in cents as the column's text shows it. -/
def centsText (v : ℤ) : String :=
  (if v < 0 then "-" else "") ++ toString (v.natAbs / 100) ++ "." ++
    toString (v.natAbs / 10 % 10) ++ toString (v.natAbs % 10)

def isSpace (c : Char) : Bool :=
  c.toNat ∈ [0x9, 0xA, 0xB, 0xC, 0xD, 0x20, 0x85, 0xA0, 0x1680, 0x2028, 0x2029, 0x202F, 0x205F,
    0x3000] || (0x2000 ≤ c.toNat && c.toNat ≤ 0x200A)

/-- The notes hold no reason. -/
def blank : Option String → Bool
  | none => true
  | some notes => notes.toList.all isSpace

/-- `DecimalDifference`, with whether it is zero; `none` is the overflow of its cast. -/
def decimalDifference (a b : ℚ) : Option (ℤ × Bool) :=
  (store 14 2 (a - b)).map fun diff ↦ (diff, decide (a - b = 0))

def cashVarianceThreshold : ℤ := 100000

/-- The tenders of a request; an omitted one is blank. -/
structure CashSubmissionRequest where
  cashAmount : Option ℚ
  mobileMoneyAmount : Option ℚ
  cardAmount : Option ℚ
  creditAmount : Option ℚ
  notes : Option String

/-- `tenderOrZero`; `none` is a tender that is not acceptable. -/
def tenderOrZero : Option ℚ → Option ℚ
  | none => some 0
  | some v => if validDecimal v then some v else none

/-- The tenders of an accepted request. -/
structure Tenders where
  cash : ℚ
  mobileMoney : ℚ
  card : ℚ
  credit : ℚ

def CashSubmissionRequest.tenders (req : CashSubmissionRequest) : Option Tenders := do
  let cash ← tenderOrZero req.cashAmount
  let mobileMoney ← tenderOrZero req.mobileMoneyAmount
  let card ← tenderOrZero req.cardAmount
  let credit ← tenderOrZero req.creditAmount
  return ⟨cash, mobileMoney, card, credit⟩

/-- The row to insert. -/
def CashSubmissionRequest.input (req : CashSubmissionRequest) (t : Tenders) (shift actor : Uuid)
    (expected : ℤ) : CashSubmissionInput where
  shiftId := shift
  expectedCash := (expected : ℚ) / 10 ^ 2
  cashAmount := t.cash
  mobileMoneyAmount := t.mobileMoney
  cardAmount := t.card
  creditAmount := t.credit
  submittedBy := actor
  notes := req.notes

/-- An attendant explains a total that differs from the expected cash. -/
def requireVarianceReason (override : Bool) (c : CashSubmission) (next : Txn env) : Txn env :=
  if ¬override ∧ blank c.notes then
    match decimalDifference ((c.submittedTotal : ℚ) / 10 ^ 2) ((c.expectedCash : ℚ) / 10 ^ 2) with
    | none => internalError
    | some (_, zero) =>
      if zero then next
      else .rollback (.shift (.coded 422
        ("your submitted total does not match the expected amount — " ++
          "add a reason explaining the difference") "variance_reason_required"))
  else next

/-- A variance over the threshold raises an exception. -/
def raiseVariance (shift : Uuid) (c : CashSubmission) : Txn env :=
  if |c.variance| > cashVarianceThreshold then
    .query (.raiseException shift .cashVariance .high
      ("cash variance " ++ centsText c.variance ++ " exceeds threshold " ++
        centsText cashVarianceThreshold)) fun _ ↦ .commit (.submission c)
  else .commit (.submission c)

def answerSubmitted (shift : Uuid) (override : Bool) : Except PgError CashSubmission → Txn env
  | .ok c => requireVarianceReason env override c (raiseVariance env shift c)
  | .error .uniqueViolation => refuse 409 "cash has already been submitted for this shift"
  | .error _ => internalError

/-- The transaction of a submission: the shift is locked in shared mode and must still be closed. -/
def submitInput (override : Bool) (input : CashSubmissionInput) : Txn env :=
  lockShiftStatusForShare env input.shiftId fun
    | none => internalError
    | some status =>
      if status ≠ .closed then refuse 409 "shift must be closed before cash is submitted"
      else .lock (.submission input.shiftId) <|
        .query (.insertCashSubmission input) (answerSubmitted env input.shiftId override)

def handleSubmitCash (actor shift : Uuid) (req : CashSubmissionRequest) : Txn env :=
  match req.tenders with
  | none => refuse 400 "tender amounts must be non-negative decimals"
  | some t => shiftForScopedWrite env actor shift .cashSubmit .cashOverride fun s override ↦
    if s.status ≠ .closed then refuse 409 "shift must be closed before cash is submitted"
    else .query (.forecourt (.sumExpected s.id)) fun
      | none => internalError
      | some (expected : ℤ) => submitInput env override (req.input t s.id actor expected)

/-- The status of a receipt: it follows the difference unless the supervisor holds the handover. -/
def receiptStatus (status : String) (zero : Bool) : ReceiptStatus :=
  if status = "rejected" then .rejected
  else if status = "flagged" then .flagged
  else if zero then .received
  else .approvedWithDifference

/-- Answer with the replaced hold. -/
def answerHeld : Except PgError (Option CollectionReceipt) → Txn env
  | .ok (some r) => .commit (.receipt r)
  | .ok none => refuse 409 "this cash submission already has a confirmed collection receipt"
  | .error _ => internalError

/-- Insert the receipt, or overwrite a hold with it. The insert that fails is undone by its
savepoint. -/
def upsertReceipt (input : CollectionReceiptInput) : Txn env :=
  .lock (.receipt input.cashSubmissionId) <| .query (.insertCollectionReceipt input) fun
    | .ok r => .commit (.receipt r)
    | .error .uniqueViolation => .query (.findHeldReceipt input.cashSubmissionId)
        fun (found : Bool) ↦
          if found then .query (.replaceHeldReceipt input) (answerHeld env)
          else refuse 409 "this cash submission already has a confirmed collection receipt"
    | .error _ => internalError

/-- The transaction of a confirmation: the shift is locked in shared mode and must still be
closed. -/
def confirmInput (input : CollectionReceiptInput) : Txn env :=
  lockShiftStatusForShare env input.shiftId fun
    | none => internalError
    | some status =>
      if status ≠ .closed then refuse 409 "cash is confirmed on a closed shift"
      else upsertReceipt env input

def handleConfirmCashSubmission (actor shift : Uuid) (receivedTotal : ℚ) (status reason : String) :
    Txn env :=
  if ¬validDecimal receivedTotal then
    refuse 400 "received_total must be a non-negative decimal"
  else if status ≠ "" ∧ status ≠ "received" ∧ status ≠ "rejected" ∧ status ≠ "flagged" then
    refuse 400 "status must be received, rejected, or flagged"
  else shiftForWrite env actor shift .cashConfirm fun s ↦
    if s.status ≠ .closed then refuse 409 "cash is confirmed on a closed shift"
    else .query (.getCashSubmission s.id) fun
      | none => refuse 409 "no cash submission to confirm for this shift"
      | some c =>
        if c.submittedBy = actor ∧ ¬env.isSystemAdmin actor then
          refuse 403 "separation of duties: you cannot confirm a cash submission you made"
        else match decimalDifference receivedTotal ((c.expectedCash : ℚ) / 10 ^ 2) with
        | none => internalError
        | some (_, zero) =>
          if receiptStatus status zero ≠ .received ∧ reason = "" then
            refuse 400 ("reason is required when the received total differs from expected " ++
              "or the handover is rejected or flagged")
          else confirmInput env {
            shiftId := s.id
            cashSubmissionId := c.id
            expectedAmount := (c.expectedCash : ℚ) / 10 ^ 2
            attendantSubmittedTotal := (c.submittedTotal : ℚ) / 10 ^ 2
            supervisorReceivedTotal := receivedTotal
            status := receiptStatus status zero
            reason := if reason = "" then none else some reason
            receivedBy := actor }

/-! ## Exceptions and the approval -/

def handleResolveShiftException (actor id : Uuid) (status : String) : Txn env :=
  if status ≠ "resolved" then refuse 400 "status must be resolved"
  else .query (.getException id) fun
    | none => refuse 404 "exception not found"
    | some e => .query (.forecourt (.getShift e.shiftId)) fun
      | none => internalError
      | some (s : Shift) => authorizeStation env actor .shiftApprove s.stationId <|
          .query (.findOpenException id) fun (found : Bool) ↦
            if found then
              .lock (.exception id) <| .query (.resolveException id actor) fun
                | none => refuse 409 "exception is already resolved"
                | some e' => .commit (.exception e')
            else refuse 409 "exception is already resolved"

def requireNoOpenException (shift : Uuid) (next : Txn env) : Txn env :=
  .query (.openExceptionCount shift) fun (count : ℕ) ↦
    if count > 0 then refuse 409 "resolve the shift's open exceptions before approving"
    else next

def requireClosingReadingsVerified (shift : Uuid) (next : Txn env) : Txn env :=
  .query (.closingVerificationGateCounts shift) fun (counts : ℕ × ℕ × ℕ) ↦
    let (unverified, rejected, flagged) := counts
    if rejected > 0 then
      .rollback (.readingsPending
        "a rejected closing reading is awaiting attendant re-capture before approving"
        "readings_rejected_pending" rejected)
    else if flagged > 0 then
      .rollback
      (.readingsPending "a flagged closing reading is under investigation before approving"
        "readings_flagged_pending" flagged)
    else if unverified > 0 then
      .rollback (.readingsPending "verify the shift's closing readings before approving"
        "readings_unverified" unverified)
    else next

def requireCollectionReceiptConfirmed (shift : Uuid) (next : Txn env) : Txn env :=
  .query (.cashSubmissionAwaitingReceipt shift) fun (awaiting : Bool) ↦
    if awaiting then
      .rollback (.shift (.coded 409 "confirm the shift's cash submission before approving"
        "collection_unconfirmed"))
    else next

/-- The gates, which the handler passes twice: on the pool, and under the lock on the shift. -/
def approvalGates (shift : Uuid) (next : Txn env) : Txn env :=
  requireNoOpenException env shift <| requireClosingReadingsVerified env shift <|
    requireCollectionReceiptConfirmed env shift next

/-- Approve the locked shift and post its sales and its revenue. -/
def finishApproval (shift : Uuid) : Txn env :=
  .query (.approveShift shift) fun
    | none => internalError
    | some (after : Shift) => .query (.postShiftSales shift) fun (posted : Bool) ↦
      if posted then
        .query (.recognizeShiftRevenue shift) fun (recognized : Bool) ↦
          if recognized then .commit (.approved after) else internalError
      else internalError

/-- The transaction of the approval. -/
def approveLocked (shift : Uuid) : Txn env :=
  .lock (.forecourt (.shift shift)) <| .query (.forecourt (.getShift shift)) fun
    | none => refuse 404 "shift not found"
    | some (locked : Shift) =>
      if locked.status ≠ .closed then refuse 409 "only a closed shift can be approved"
      else approvalGates env shift (finishApproval env shift)

def handleApproveShift (actor shift : Uuid) (status : String) : Txn env :=
  if status ≠ "approved" then
    refuse 400 "status must be approved (close is via POST /close)"
  else shiftForWrite env actor shift .shiftApprove fun s ↦
    if s.status ≠ .closed then refuse 409 "only a closed shift can be approved"
    else if s.closedBy = some actor ∧ ¬env.isSystemAdmin actor then
      refuse 403 "separation of duties: you cannot approve a shift you closed"
    else approvalGates env s.id (approveLocked env s.id)

/-! ## Opening a shift -/

/-- Put the scheduled team on the shift. -/
def assignAttendants (s : Shift) : List Uuid → Txn env
  | [] => .commit (.opened s)
  | user :: users => .query (.assignAttendant s.id user) fun (assigned : Bool) ↦
      if assigned then assignAttendants s users else internalError

def insertShift (station day : Uuid) (openedAt : ℤ) (attendants : List Uuid) : Txn env :=
  .query (.openShift station day openedAt) fun (s : Shift) ↦ assignAttendants env s attendants

/-- The handover chain: the closed shifts of the station must be approved first, or the actor gives
a reason and may approve shifts. -/
def handoverGate (actor station : Uuid) (overrideReason : String) (next : Txn env) : Txn env :=
  .query (.closedUnapprovedShiftIds station) fun (unapproved : List Uuid) ↦
    if unapproved = [] then next
    else if overrideReason = "" then .rollback (.priorShiftUnapproved unapproved)
    else authorizeStation env actor .shiftApprove station next

/-- The transaction of the opening: the day is locked in shared mode and must still be open. -/
def openOnDay (actor station day : Uuid) (openedAt : ℤ) (overrideReason : String)
    (attendants : List Uuid) : Txn env :=
  .lock (.dayShare day) <| .query (.dayStatus day) fun
    | none => refuse 404 "operating day not found"
    | some status =>
      if status ≠ .opened then refuse 409 "operating day is not open"
      else handoverGate env actor station overrideReason
        (insertShift env station day openedAt attendants)

/-- `handleOpenShift`; a missing day or slot is `none`. -/
def handleOpenShift (actor station : Uuid) (day : Option Uuid) (name : String) (slot : Option Slot)
    (openedAt : ℤ) (overrideReason : String) : Txn env :=
  match day with
  | none => refuse 400 "operating_day_id and name are required"
  | some day =>
    if name = "" then refuse 400 "operating_day_id and name are required"
    else match slot with
    | none => refuse 400 "slot is required and must be morning or evening"
    | some slot => .query (.getDay day) fun
      | none => refuse 404 "operating day not found"
      | some (d : OperatingDay) =>
        if d.stationId ≠ station then
          refuse 400 "operating day belongs to a different station"
        else if d.status ≠ .opened then refuse 409 "operating day is not open"
        else .query (.openShiftBlockers station) fun (blockers : List String) ↦
          if blockers ≠ [] then .rollback (.setupIncomplete blockers)
          else .query (.scheduledTeamFor station d.businessDate slot) fun
            | .stationNotFound => refuse 404 "station not found"
            | .noTeam => refuse 400 ("station has no rotation configured " ++
                "(set the rotation anchor and the three teams first)")
            | .team members =>
              if members.filterMap id = [] then
                refuse 400 ("the scheduled team has no members with a login account — " ++
                  "no shift without its expected employees")
              else openOnDay env actor station day openedAt overrideReason (members.filterMap id)

/-! ## The operating day -/

def DayStatus.text : DayStatus → String
  | .opened => "open"
  | .closed => "closed"
  | .locked => "locked"

def answerDay : Option OperatingDay → Txn env
  | none => refuse 404 "not found"
  | some d => .commit (.day d)

def requireNoOpenShift (day : Uuid) (status : DayStatus) (next : Txn env) : Txn env :=
  if status = .closed then
    .query (.openShiftCount day) fun (count : ℕ) ↦
      if count > 0 then refuse 409 "close the day's open shifts first" else next
  else next

def changeStatus (actor day : Uuid) (status : DayStatus) (now : ℤ) : Txn env :=
  .lock (.day day) <| .query (.getDay day) fun
    | none => refuse 404 "not found"
    | some (locked : OperatingDay) =>
      if locked.status = .locked then refuse 409 "a locked day cannot change status"
      else if locked.status = status then refuse 409 ("already " ++ status.text)
      else requireNoOpenShift env day status <|
        .query (.setStatus day status actor now) (answerDay env)

def handleUpdateOperatingDayStatus (actor day : Uuid) (status : DayStatus) (now : ℤ) : Txn env :=
  if status = .locked then
    refuse 400 "status must be open or closed (use /lock to lock)"
  else .query (.getDay day) fun
    | none => refuse 404 "not found"
    | some (before : OperatingDay) => authorizeStation env actor .manageDay before.stationId
        (changeStatus env actor day status now)

/-- `handleLockOperatingDay`: the checks are made on the pool, and the transaction only updates. -/
def handleLockOperatingDay (actor day : Uuid) (now : ℤ) : Txn env :=
  .query (.getDay day) fun
    | none => refuse 404 "not found"
    | some (before : OperatingDay) => authorizeStation env actor .manageDay before.stationId <|
        if before.status ≠ .closed then refuse 409 "only a closed day can be locked"
        else .query (.unapprovedShiftCount before.id) fun (unapproved : ℕ) ↦
          if unapproved > 0 then
            refuse 409 "all shifts must be approved before locking the day"
          else .lock (.day day) <| .query (.lockDay day actor now) (answerDay env)

/-- The requests that the forecourt makes itself; it leaves the opening and the approval of shifts
to the station. -/
def ofForecourt : Forecourt.Op → Bool
  | .elsewhere (.openShift ..) | .elsewhere (.approveShift _) => false
  | _ => true

/-- A request to the station. -/
inductive Op where
  | forecourt (op : Forecourt.Op) (own : ofForecourt op)
  | openShift (actor station : Uuid) (day : Option Uuid) (name : String) (slot : Option Slot)
      (openedAt : ℤ) (overrideReason : String)
  | approveShift (actor shift : Uuid) (status : String)
  | submitCash (actor shift : Uuid) (req : CashSubmissionRequest)
  | confirmCash (actor shift : Uuid) (receivedTotal : ℚ) (status reason : String)
  | resolveException (actor id : Uuid) (status : String)
  | updateDay (actor day : Uuid) (status : DayStatus) (now : ℤ)
  | lockDay (actor day : Uuid) (now : ℤ)

def Op.prog : Op → Txn env
  | .forecourt op _ => (op.prog env.forecourt).lift (forecourtPart env)
  | .openShift actor station day name slot openedAt overrideReason =>
    handleOpenShift env actor station day name slot openedAt overrideReason
  | .approveShift actor shift status => handleApproveShift env actor shift status
  | .submitCash actor shift req => handleSubmitCash env actor shift req
  | .confirmCash actor shift receivedTotal status reason =>
    handleConfirmCashSubmission env actor shift receivedTotal status reason
  | .resolveException actor id status => handleResolveShiftException env actor id status
  | .updateDay actor day status now => handleUpdateOperatingDayStatus env actor day status now
  | .lockDay actor day now => handleLockOperatingDay env actor day now

end FuelGrid.Station
