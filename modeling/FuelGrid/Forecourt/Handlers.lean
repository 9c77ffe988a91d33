import FuelGrid.Forecourt.Schema

/-!
# The handlers behind a shift close

Capture and correction of meter readings (`meter_readings_handlers.go`), their verification
(`reading_verification_handlers.go`) and the close of the shift (`shift_close_handlers.go`), each as
one program. A handler first reads on the pool and opens its transaction later: the reads are
statements before the first write, so that other requests can commit between them.

A request's body has been decoded, its reason is trimmed, and its audit record and notifications are
left out.
-/

namespace FuelGrid.Forecourt

open Sql

variable (env : Env)

abbrev Txn := Prog (schema env)

/-! ## Who may write -/

def checkOpen (requireOpen : Bool) (s : Shift) (next : Txn env) : Txn env :=
  if requireOpen ∧ s.status ≠ .opened then .rollback (.http 409 "shift is not open") else next

def shiftForWrite (actor shift : Uuid) (perm : Permission) (requireOpen : Bool)
    (next : Shift → Txn env) : Txn env :=
  .query (.getShift shift) fun
    | none => .rollback (.http 404 "shift not found")
    | some s =>
      if env.can actor perm s.stationId then checkOpen env requireOpen s (next s)
      else .rollback (.http 403 "forbidden")

/-- `shiftForScopedWrite`: the flag says whether the actor has the override permission. -/
def shiftForScopedWrite (actor shift : Uuid) (basePerm overridePerm : Permission)
    (requireOpen : Bool) (next : Shift → Bool → Txn env) : Txn env :=
  .query (.getShift shift) fun
    | none => .rollback (.http 404 "shift not found")
    | some s =>
      if env.can actor overridePerm s.stationId then checkOpen env requireOpen s (next s true)
      else if env.can actor basePerm s.stationId then
        .query (.isAttendantOnShift s.id actor) fun (onShift : Bool) ↦
          if onShift then checkOpen env requireOpen s (next s false)
          else .rollback (.http 403 "you are not assigned to this shift")
      else .rollback (.http 403 "forbidden")

def requireNozzleAssigned (actor shift nozzle : Uuid) (override : Bool) (next : Txn env) :
    Txn env :=
  .query (.nozzleAssigned shift nozzle (if override then none else some actor))
    fun (assigned : Bool) ↦
      if assigned then next
      else if override then .rollback (.http 422 "nozzle is not assigned on this shift")
      else .rollback (.http 403 "nozzle is not assigned to you on this shift")

/-! ## Capturing and correcting -/

/-- The insert waits for another one of the same active reading. -/
def captureRow (input : CaptureInput) (next : Except PgError MeterReading → Txn env) : Txn env :=
  .lock (.activeReading input.shiftId input.nozzleId input.readingType) <|
    .query (.capture input) next

def ReadingType.text : ReadingType → String
  | .opening => "opening"
  | .closing => "closing"

/-- Answer a capture; a second active reading of the same kind is refused. -/
def answerCaptured (type : ReadingType) : Except PgError MeterReading → Txn env
  | .ok m => .commit (.reading m)
  | .error .uniqueViolation =>
    match type with
    | .closing => .rollback (.coded 409
        ("a closing reading was already submitted for this nozzle; " ++
          "supervisor verification handles corrections") "closing_already_submitted")
    | .opening => .rollback (.http 409
        ("a " ++ type.text ++ " reading already exists for this nozzle; correct it instead"))
  | .error _ => internalError

/-- An opening must not lie below the final closing of the shift before. -/
def checkExpectedOpening (s : Shift) (nozzle : Uuid) (type : ReadingType) (reading : ℚ)
    (next : Txn env) : Txn env :=
  match type with
  | .closing => next
  | .opening => .query (.expectedOpening s nozzle) fun
    | none => next
    | some (expected : ℤ) =>
      if reading < (expected : ℚ) / 10 ^ 3 then .rollback (.openingBelowExpected expected) else next

def handleCaptureMeterReading (actor shift nozzle : Uuid) (type : ReadingType) (reading : ℚ) :
    Txn env :=
  if validDecimal reading then
    shiftForScopedWrite env actor shift .readingEdit .readingOverride true fun s override ↦
      .query (.getNozzle nozzle) fun
        | none => .rollback (.http 404 "nozzle not found")
        | some z =>
          if z.stationId ≠ s.stationId then
            .rollback (.http 400 "nozzle is at a different station than the shift")
          else requireNozzleAssigned env actor s.id nozzle override <|
            if validateScale env.round64 reading z.meterDecimalPlaces then
              checkExpectedOpening env s nozzle type reading <|
                captureRow env ⟨s.id, nozzle, type, reading, actor, none⟩
                  (answerCaptured env type)
            else .rollback (.http 422
              "reading has more decimals than the nozzle's meter precision")
  else .rollback (.http 400 "reading must be a non-negative decimal")

/-- `Supersede` -/
def supersedeRow (id : Uuid) (next : Bool → Txn env) : Txn env :=
  .query (.findActive id) fun (found : Bool) ↦
    if found then .lock (.reading id) <| .query (.supersede id) next else next false

def answerCorrected : Except PgError MeterReading → Txn env
  | .ok m => .commit (.reading m)
  | .error _ => internalError

/-- The lock on a submitted closing: only a rejection lets its attendant correct it. -/
def checkSubmissionLock (shift : Uuid) (override : Bool) (old : MeterReading) (next : Txn env) :
    Txn env :=
  if ¬override ∧ old.readingType = .closing then
    .query (.activeClosingRejected shift old.nozzleId) fun (rejected : Bool) ↦
      if rejected then next
      else .rollback (.coded 409
        ("your closing reading is locked after submission; " ++
          "ask your supervisor to review and correct it") "closing_already_submitted")
  else next

def handleCorrectMeterReading (actor shift readingId : Uuid) (reading : ℚ) : Txn env :=
  if validDecimal reading then
    shiftForScopedWrite env actor shift .readingEdit .readingOverride true fun s override ↦
      .query (.getReading readingId) fun
        | none => .rollback (.http 404 "reading not found")
        | some old =>
          if old.shiftId ≠ s.id then
            .rollback (.http 400 "reading does not belong to this shift")
          else if old.status ≠ .active then
            .rollback (.http 409 "reading is already superseded")
          else checkSubmissionLock env s.id override old <|
            requireNozzleAssigned env actor s.id old.nozzleId override <|
              .query (.getNozzle old.nozzleId) fun
                | none => internalError
                | some z =>
                  if validateScale env.round64 reading z.meterDecimalPlaces then
                    supersedeRow env old.id fun (superseded : Bool) ↦
                      if superseded then
                        captureRow env
                          ⟨s.id, old.nozzleId, old.readingType, reading, actor, some old.id⟩
                          (answerCorrected env)
                      else .rollback (.http 409 "reading is already superseded")
                  else .rollback (.http 422
                    "reading has more decimals than the nozzle's meter precision")
  else .rollback (.http 400 "reading must be a non-negative decimal")

/-! ## Verifying -/

def shiftForVerification (actor shift : Uuid) (next : Shift → Txn env) : Txn env :=
  shiftForWrite env actor shift .readingOverride false next

/-- `loadClosingForVerdict`. `handleVerifyCorrectReading` makes the same checks with the verb
"verify". -/
def loadClosingForVerdict (actor shift readingId : Uuid) (verb : String)
    (next : Shift → MeterReading → Txn env) : Txn env :=
  shiftForVerification env actor shift fun s ↦
    if s.status = .approved then .rollback (.http 409 "shift is already approved")
    else .query (.getReading readingId) fun
      | none => .rollback (.http 404 "reading not found")
      | some m =>
        if m.shiftId ≠ s.id then .rollback (.http 400 "reading does not belong to this shift")
        else if m.readingType ≠ .closing then
          .rollback (.http 422 "only closing readings are verified")
        else if m.status ≠ .active then
          .rollback (.http 409
            ("reading is superseded; " ++ verb ++ " its active correction instead"))
        else if m.recordedBy = actor then
          .rollback (.http 403
            ("separation of duties: you cannot " ++ verb ++ " a reading you recorded"))
        else next s m

/-- The end of `upsertVerificationClearingHold`: answer with the replaced hold. -/
def answerHold (next : Verification → Txn env) : Except PgError (Option Verification) → Txn env
  | .ok (some v) => next v
  | .ok none => .rollback (.http 409 "reading is already verified")
  | .error _ => internalError

/-- `upsertVerificationClearingHold`: insert the verdict, or overwrite a hold with it. The insert
that fails is undone by its savepoint. -/
def upsertVerificationClearingHold (input : VerificationInput) (next : Verification → Txn env) :
    Txn env :=
  .lock (.verification input.readingId) <| .query (.insertVerification input) fun
    | .ok v => next v
    | .error .uniqueViolation => .query (.findHold input.readingId) fun (found : Bool) ↦
        if found then .query (.replaceHold input) (answerHold env next)
        else .rollback (.http 409 "reading is already verified")
    | .error _ => internalError

def MeterReading.verdict (m : MeterReading) (status : VerificationStatus) (reason : Option String)
    (actor : Uuid) : VerificationInput where
  shiftId := m.shiftId
  nozzleId := m.nozzleId
  readingId := m.id
  attendantSubmittedReading := (m.reading : ℚ) / 10 ^ 3
  supervisorVerifiedReading := none
  finalApprovedReading := (m.reading : ℚ) / 10 ^ 3
  status := status
  reason := reason
  verifiedBy := actor

def recordReadingVerdict (actor : Uuid) (m : MeterReading) (status : VerificationStatus)
    (reason : Option String) : Txn env :=
  upsertVerificationClearingHold env (m.verdict status reason actor) fun v ↦
    .commit (.verification v)

def handleRejectReading (actor shift readingId : Uuid) (reason : String) : Txn env :=
  if reason = "" then .rollback (.http 400 "reason is required when rejecting a reading")
  else loadClosingForVerdict env actor shift readingId "reject" fun _ m ↦
    recordReadingVerdict env actor m .rejected (some reason)

def handleFlagReading (actor shift readingId : Uuid) (reason : String) : Txn env :=
  if reason = "" then .rollback (.http 400 "reason is required when flagging a reading")
  else loadClosingForVerdict env actor shift readingId "flag" fun _ m ↦
    recordReadingVerdict env actor m .flagged (some reason)

def handleApproveReading (actor shift readingId : Uuid) : Txn env :=
  loadClosingForVerdict env actor shift readingId "approve" fun _ m ↦
    recordReadingVerdict env actor m .approved none

/-- The loop of `handleVerifyShiftReadings`. It goes on after a unique violation, but PostgreSQL
has aborted the transaction by then, so that the next statement or the commit fails. -/
def verifyPending (actor : Uuid) : List MeterReading → ℕ → Txn env
  | [], newlyVerified => .commit (.verified newlyVerified)
  | m :: pending, newlyVerified =>
    .lock (.verification m.id) <| .query (.insertVerification (m.verdict .approved none actor)) fun
      | .ok _ => verifyPending actor pending (newlyVerified + 1)
      | .error _ => internalError

def handleVerifyShiftReadings (actor shift : Uuid) : Txn env :=
  shiftForVerification env actor shift fun s ↦
    .query (.unverifiedClosing s.id) fun (pending : List MeterReading) ↦
      if ∃ m ∈ pending, m.recordedBy = actor then
        .rollback (.http 403 "separation of duties: you cannot verify readings you recorded")
      else verifyPending env actor pending 0

/-- Answer the update of a close line: the sign of the litres is checked on the stored figure. -/
def answerLine (next : Txn env) : Except PgError (Option CloseLine) → Txn env
  | .error _ => internalError
  | .ok none => next
  | .ok (some l) =>
    if l.litresSold < 0 then
      .rollback (.http 422 "verified_reading is below the shift's opening reading")
    else next

/-- Rewrite the close line of a nozzle, if there is one, from the corrected closing. -/
def recomputeRow (shift nozzle : Uuid) (verified : ℚ) (next : Txn env) : Txn env :=
  .query (.findLine shift nozzle) fun (found : Bool) ↦
    if found then
      .lock (.closeLine shift nozzle) <|
        .query (.recomputeCloseLine shift nozzle verified) (answerLine env next)
    else next

/-- A corrected closing must not lie below the active opening of the nozzle. -/
def checkOpening (shift nozzle : Uuid) (verified : ℚ) (next : Txn env) : Txn env :=
  .query (.activeReading shift nozzle .opening) fun
    | none => next
    | some (opening : MeterReading) =>
      if verified < (opening.reading : ℚ) / 10 ^ 3 then
        .rollback (.http 422 "verified_reading is below the shift's opening reading")
      else next

/-- The verdict that corrects a reading. -/
def MeterReading.correction (m : MeterReading) (verified : ℚ) (reason : String) (actor : Uuid) :
    VerificationInput :=
  { m.verdict .corrected (some reason) actor with
    supervisorVerifiedReading := some verified
    finalApprovedReading := verified }

def handleVerifyCorrectReading (actor shift readingId : Uuid) (verified : ℚ) (reason : String) :
    Txn env :=
  if ¬validDecimal verified then
    .rollback (.http 400 "verified_reading must be a non-negative decimal")
  else if reason = "" then
    .rollback (.http 400 "reason is required when correcting a reading")
  else loadClosingForVerdict env actor shift readingId "verify" fun s m ↦
    .query (.getNozzle m.nozzleId) fun
      | none => internalError
      | some z =>
        if validateScale env.round64 verified z.meterDecimalPlaces then
          checkOpening env s.id m.nozzleId verified <|
            upsertVerificationClearingHold env (m.correction verified reason actor) fun v ↦
              if s.status = .closed then
                recomputeRow env s.id m.nozzleId verified (.commit (.verification v))
              else .commit (.verification v)
        else .rollback (.http 422
          "verified_reading has more decimals than the nozzle's meter precision")

/-! ## Closing

The figures of the close are read before the shift is locked; the lines are frozen after. -/

/-- What `handleCloseShift` reads before it looks at the nozzles. -/
structure CloseReads where
  meterRows : List MeterReading
  dipRows : List DipReading
  finalClosing : List (Uuid × ℤ)
  rolledBack : List Uuid

namespace CloseReads

variable (reads : CloseReads)

/-- The opening of a nozzle. Of several rows the last one stays in the handler's map. -/
def opening (nozzle : Uuid) : Option ℤ :=
  (reads.meterRows.filter fun m ↦ m.nozzleId = nozzle ∧ m.readingType = .opening).getLast?.map
    (·.reading)

/-- The closing that a row stands for: its verification's final figure, if it has one. -/
def finalOf (m : MeterReading) : ℤ :=
  ((reads.finalClosing.filter (·.1 = m.id)).getLast?.map (·.2)).getD m.reading

def closing (nozzle : Uuid) : Option ℤ :=
  (reads.meterRows.filter fun m ↦ m.nozzleId = nozzle ∧ m.readingType = .closing).getLast?.map
    reads.finalOf

end CloseReads

/-- What the loop over the assigned nozzles collects. -/
structure Gathered where
  lineInputs : List CloseLineInput
  missingMeter : List Uuid
  rollbackNozzles : List Uuid
  missingDip : List Uuid
  dipTanksSeen : List Uuid

def Gathered.empty : Gathered := ⟨[], [], [], [], []⟩

/-- The closing dip of the tank behind the nozzle is looked for once. -/
def Gathered.checkDip (g : Gathered) (reads : CloseReads) (z : Nozzle) : Gathered :=
  if z.tankId ∈ g.dipTanksSeen then g
  else
    { g with
      dipTanksSeen := g.dipTanksSeen ++ [z.tankId]
      missingDip :=
        if ∃ d ∈ reads.dipRows, d.tankId = z.tankId ∧ d.readingType = .closing then g.missingDip
        else g.missingDip ++ [z.tankId] }

/-- One nozzle of the loop: it lacks a reading, it has rolled back, or it gets a line. -/
def Gathered.addNozzle (g : Gathered) (reads : CloseReads) (shift : Uuid) (z : Nozzle)
    (nozzle : Uuid) : Gathered :=
  match reads.opening nozzle, reads.closing nozzle with
  | some opening, some closing =>
    if nozzle ∈ reads.rolledBack then
      { g with rollbackNozzles := g.rollbackNozzles ++ [nozzle] }
    else
      { g with
        lineInputs := g.lineInputs ++ [{
          shiftId := shift
          nozzleId := nozzle
          openingReading := (opening : ℚ) / 10 ^ 3
          closingReading := (closing : ℚ) / 10 ^ 3
          unitPrice := (z.defaultPrice : ℚ) / 10 ^ 2 }] }
  | _, _ => { g with missingMeter := g.missingMeter ++ [nozzle] }

/-- The loop over the assigned nozzles. -/
def gather (reads : CloseReads) (shift : Uuid) (next : Gathered → Txn env) :
    List NozzleAssignment → Gathered → Txn env
  | [], g => next g
  | a :: as, g => .query (.getNozzle a.nozzleId) fun
    | none => internalError
    | some z => gather reads shift next as ((g.checkDip reads z).addNozzle reads shift z a.nozzleId)

def insertCloseLines (next : List CloseLine → Txn env) :
    List CloseLineInput → List CloseLine → Txn env
  | [], lines => next lines
  | input :: inputs, lines => .query (.insertCloseLine input) fun
    | .error _ => internalError
    | .ok l => insertCloseLines next inputs (lines ++ [l])

/-- Close the locked shift and total its expected cash. -/
def finishClose (actor shift : Uuid) (now : ℤ) (lines : List CloseLine) : Txn env :=
  .query (.closeShift shift actor now) fun
    | none => internalError
    | some closed => .query (.sumExpected shift) fun
      | none => internalError
      | some expected => .commit (.closed closed lines expected)

/-- The transaction of the close: the shift is locked and must still be open. -/
def closeGathered (actor shift : Uuid) (now : ℤ) (g : Gathered) : Txn env :=
  if g.missingMeter ≠ [] ∨ g.missingDip ≠ [] ∨ g.rollbackNozzles ≠ [] then
    .rollback (.missingReadings g.missingMeter g.missingDip g.rollbackNozzles)
  else .lock (.shift shift) <| .query (.getShift shift) fun
    | none => .rollback (.http 404 "shift not found")
    | some locked =>
      if locked.status ≠ .opened then .rollback (.http 409 "shift is not open")
      else insertCloseLines env (finishClose env actor shift now) g.lineInputs []

def handleCloseShift (actor shift : Uuid) (now : ℤ) : Txn env :=
  shiftForWrite env actor shift .shiftClose true fun s ↦
    .query (.listNozzleAssignments s.id) fun (assignments : List NozzleAssignment) ↦
      if assignments = [] then
        .rollback (.http 422
          "shift has no nozzle assignments; assign at least one before closing")
      else .query (.listActive s.id) fun meterRows ↦ .query (.listDips s.id) fun dipRows ↦
        .query (.finalClosingOverrides s.id) fun finalClosing ↦
          .query (.rollbackNozzles s.id) fun rolledBack ↦
            gather env ⟨meterRows, dipRows, finalClosing, rolledBack⟩ s.id
              (closeGathered env actor s.id now) assignments .empty

end FuelGrid.Forecourt
