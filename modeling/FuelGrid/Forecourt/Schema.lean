import FuelGrid.Sql.Numeric
import FuelGrid.Sql.Refusals

/-!
# Shifts, meter readings and close lines

The tables and the SQL statements behind the closing of a shift (`internal/readings` and the shift
part of `internal/operations`): the meter readings of a shift, their verification by a supervisor,
and the close lines that are frozen when the shift closes. One tenant's rows are modelled.
-/

namespace FuelGrid.Forecourt

open Sql

/-! ## The environment

Every figure that a request binds has passed `validDecimal`, which admits four decimals; a column
then rounds to its own scale. -/

inductive Permission where
  | readingEdit | readingOverride | shiftClose

structure Env where
  /-- The policy engine: whether a user has a permission at a station. -/
  can : Uuid → Permission → Uuid → Bool
  /-- The nearest `float64`. -/
  round64 : ℚ → ℚ
  /-- The order of the generated ids, which are random. -/
  rank : Uuid → ℕ

/-- `ValidateScale`: every operation on floats rounds its exact result. -/
def validateScale (round64 : ℚ → ℚ) (reading : ℚ) (decimalPlaces : ℤ) : Bool :=
  -- a negative number of places counts as zero
  let scaled := round64 (round64 reading * 10 ^ decimalPlaces.toNat)
  !decide (|round64 (scaled - roundHalfAway scaled)| > round64 (1 / 10 ^ 6))

/-- `validDecimal`, on the value of the text: no sign and at most four decimals. -/
def validDecimal (v : ℚ) : Bool := decide (0 ≤ v) && (v * 10 ^ 4).isInt

/-! ## Tables

Readings and litres are `numeric(14,3)` columns in thousandths of a litre, prices and values
`numeric(14,2)` columns in cents. The id of an inserted row is the machine's stamp.

The tables that no function of this model writes (nozzles, assignments, attendants, dips) are
collected in `Fixtures`. -/

inductive ShiftStatus where
  | opened | closed | approved
  deriving DecidableEq

structure Shift where
  id : Uuid
  stationId : Uuid
  status : ShiftStatus
  openedAt : ℤ
  closedBy : Option Uuid
  closedAt : Option ℤ

structure Nozzle where
  id : Uuid
  stationId : Uuid
  tankId : Uuid
  /-- In cents. -/
  defaultPrice : ℤ
  meterDecimalPlaces : ℤ

structure NozzleAssignment where
  shiftId : Uuid
  nozzleId : Uuid
  attendantId : Uuid

inductive ReadingType where
  | opening | closing
  deriving DecidableEq

inductive ReadingStatus where
  | active | superseded
  deriving DecidableEq

structure DipReading where
  shiftId : Uuid
  tankId : Uuid
  readingType : ReadingType
  status : ReadingStatus

/-- The rows that only other modules write. Assignments are listed in the order they were made. -/
structure Fixtures where
  nozzles : List Nozzle
  assignments : List NozzleAssignment
  /-- `shift_attendants`: a shift and a user on it. -/
  attendants : List (Uuid × Uuid)
  dips : List DipReading

structure MeterReading where
  id : Uuid
  shiftId : Uuid
  nozzleId : Uuid
  readingType : ReadingType
  reading : ℤ
  recordedBy : Uuid
  supersedesId : Option Uuid
  status : ReadingStatus
  /-- `chk_meter_readings_value` -/
  value : 0 ≤ reading
  deriving DecidableEq

def MeterReading.ActiveFor (m : MeterReading) (shift nozzle : Uuid) (type : ReadingType) : Prop :=
  m.shiftId = shift ∧ m.nozzleId = nozzle ∧ m.readingType = type ∧ m.status = .active
  deriving Decidable

inductive VerificationStatus where
  | approved | corrected | rejected | flagged
  deriving DecidableEq

/-- A verdict that can still be decided again. -/
def VerificationStatus.Hold (s : VerificationStatus) : Prop := s = .rejected ∨ s = .flagged
  deriving Decidable

structure Verification where
  shiftId : Uuid
  nozzleId : Uuid
  readingId : Uuid
  attendantSubmittedReading : ℤ
  supervisorVerifiedReading : Option ℤ
  finalApprovedReading : ℤ
  status : VerificationStatus
  reason : Option String
  verifiedBy : Uuid
  /-- `chk_reading_verifications_reason` -/
  reasoned : status = .approved ∨ reason ≠ none
  /-- `chk_reading_verifications_corrected` -/
  corrected : status ≠ .corrected ∨ supervisorVerifiedReading ≠ none
  /-- `chk_reading_verifications_nonneg` -/
  nonneg : 0 ≤ attendantSubmittedReading ∧ 0 ≤ finalApprovedReading

/-- One row of `shift_close_lines`. -/
structure CloseLine where
  shiftId : Uuid
  nozzleId : Uuid
  openingReading : ℤ
  closingReading : ℤ
  litresSold : ℤ
  unitPrice : ℤ
  expectedValue : ℤ

structure ShiftDb where
  fixtures : Fixtures
  shifts : List Shift
  readings : List MeterReading
  verifications : List Verification
  lines : List CloseLine

/-! ## Statements on readings -/

structure CaptureInput where
  shiftId : Uuid
  nozzleId : Uuid
  readingType : ReadingType
  reading : ℚ
  recordedBy : Uuid
  supersedesId : Option Uuid

/-- `Capture`, with the partial unique index on the active readings. -/
def capture (db : ShiftDb) (n : ℕ) (input : CaptureInput) : Except PgError MeterReading :=
  match store 14 3 input.reading with
  | none => .error .numericOverflow
  | some reading =>
    if value : 0 ≤ reading then
      if ∃ m ∈ db.readings, m.ActiveFor input.shiftId input.nozzleId input.readingType then
        .error .uniqueViolation
      else .ok {
        id := n
        shiftId := input.shiftId
        nozzleId := input.nozzleId
        readingType := input.readingType
        reading
        recordedBy := input.recordedBy
        supersedesId := input.supersedesId
        status := .active
        value }
    else .error .checkViolation

def MeterReading.supersede (m : MeterReading) : MeterReading := { m with status := .superseded }

/-- `ActiveForShiftNozzle` -/
def activeReading (db : ShiftDb) (shift nozzle : Uuid) (type : ReadingType) :
    Option MeterReading :=
  db.readings.find? fun m ↦ m.ActiveFor shift nozzle type

/-- `ListActiveForShift`. Its order does not matter to the handlers. -/
def listActive (db : ShiftDb) (shift : Uuid) : List MeterReading :=
  db.readings.filter fun m ↦ m.shiftId = shift ∧ m.status = .active

/-- `RollbackNozzlesForShift` -/
def rollbackNozzles (db : ShiftDb) (shift : Uuid) : List Uuid :=
  (db.readings.filter fun o ↦
    o.shiftId = shift ∧ o.readingType = .opening ∧ o.status = .active).flatMap fun o ↦
      (db.readings.filter fun c ↦
        c.ActiveFor shift o.nozzleId .closing ∧ c.reading < o.reading).map fun _ ↦ o.nozzleId

/-- The figure that later money math uses for a closing: the verified one, if there is one. -/
def finalReading (db : ShiftDb) (m : MeterReading) : ℤ :=
  ((db.verifications.find? (·.readingId = m.id)).map (·.finalApprovedReading)).getD m.reading

/-- The shifts of a station in the order of their opening. -/
def Shift.Before (env : Env) (s s' : Shift) : Prop :=
  s.openedAt < s'.openedAt ∨ (s.openedAt = s'.openedAt ∧ env.rank s.id < env.rank s'.id)
  deriving Decidable

/-- `ExpectedOpeningForNozzle`: the final closing of the latest earlier shift that has one. -/
def expectedOpening (env : Env) (db : ShiftDb) (shift : Shift) (nozzle : Uuid) : Option ℤ :=
  let prior := db.readings.flatMap fun m ↦
    (db.shifts.filter fun prev ↦ m.ActiveFor prev.id nozzle .closing ∧
      prev.stationId = shift.stationId ∧ prev.Before env shift).map fun prev ↦ (prev, m)
  let latest := prior.foldl (fun best row ↦
    if ∀ row' ∈ best, row'.1.Before env row.1 then some row else best) (none : Option (Shift × _))
  latest.map fun row ↦ finalReading db row.2

/-! ## Statements on verifications -/

structure VerificationInput where
  shiftId : Uuid
  nozzleId : Uuid
  readingId : Uuid
  attendantSubmittedReading : ℚ
  supervisorVerifiedReading : Option ℚ
  finalApprovedReading : ℚ
  status : VerificationStatus
  reason : Option String
  verifiedBy : Uuid

/-- Write a value to a nullable column. -/
def storeNullable (p s : ℕ) : Option ℚ → Option (Option ℤ)
  | none => some none
  | some x => (store p s x).map some

/-- The three figures as the columns store them; `none` if one of them does not fit. -/
def VerificationInput.figures (input : VerificationInput) : Option (ℤ × Option ℤ × ℤ) := do
  let submitted ← store 14 3 input.attendantSubmittedReading
  let verified ← storeNullable 14 3 input.supervisorVerifiedReading
  let final ← store 14 3 input.finalApprovedReading
  return (submitted, verified, final)

/-- The row with the input's values, if the table's constraints admit it. -/
def VerificationInput.row (input : VerificationInput) : Except PgError Verification :=
  match input.figures with
  | none => .error .numericOverflow
  | some (submitted, verified, final) =>
    if reasoned : input.status = .approved ∨ input.reason ≠ none then
      if corrected : input.status ≠ .corrected ∨ verified ≠ none then
        if nonneg : 0 ≤ submitted ∧ 0 ≤ final then
          .ok {
            shiftId := input.shiftId
            nozzleId := input.nozzleId
            readingId := input.readingId
            attendantSubmittedReading := submitted
            supervisorVerifiedReading := verified
            finalApprovedReading := final
            status := input.status
            reason := input.reason
            verifiedBy := input.verifiedBy
            reasoned
            corrected
            nonneg }
        else .error .checkViolation
      else .error .checkViolation
    else .error .checkViolation

/-- `InsertVerification`: a reading has at most one. -/
def insertVerification (db : ShiftDb) (input : VerificationInput) : Except PgError Verification :=
  match input.row with
  | .error e => .error e
  | .ok v =>
    if ∃ v' ∈ db.verifications, v'.readingId = input.readingId then .error .uniqueViolation
    else .ok v

/-- The hold that `ReplaceHoldVerification` selects. -/
def findHold (db : ShiftDb) (reading : Uuid) : Option Verification :=
  db.verifications.find? fun v ↦ v.readingId = reading ∧ v.status.Hold

/-- `ReplaceHoldVerification`; no row means that the verdict is final. -/
def replaceHold (db : ShiftDb) (input : VerificationInput) :
    Except PgError (Option Verification) :=
  match findHold db input.readingId with
  | none => .ok none
  | some _ => input.row.map some

/-- `UnverifiedClosingForShift` -/
def unverifiedClosing (db : ShiftDb) (shift : Uuid) : List MeterReading :=
  db.readings.filter fun m ↦ m.shiftId = shift ∧ m.readingType = .closing ∧ m.status = .active ∧
    ¬∃ v ∈ db.verifications, v.readingId = m.id

def activeClosingRejected (db : ShiftDb) (shift nozzle : Uuid) : Bool :=
  decide (∃ m ∈ db.readings, m.ActiveFor shift nozzle .closing ∧
    ∃ v ∈ db.verifications, v.readingId = m.id ∧ v.status = .rejected)

/-- `FinalClosingOverridesForShift` -/
def finalClosingOverrides (db : ShiftDb) (shift : Uuid) : List (Uuid × ℤ) :=
  (db.verifications.filter fun v ↦ v.shiftId = shift ∧ ∃ m ∈ db.readings,
    m.id = v.readingId ∧ m.readingType = .closing ∧ m.status = .active).map fun v ↦
      (v.readingId, v.finalApprovedReading)

/-! ## Statements on close lines and shifts -/

structure CloseLineInput where
  shiftId : Uuid
  nozzleId : Uuid
  openingReading : ℚ
  closingReading : ℚ
  unitPrice : ℚ

/-- The row with the litres and the value that the insert computes from the input; `none` if one of
them does not fit. -/
def CloseLineInput.row (input : CloseLineInput) : Option CloseLine := do
  let litres := input.closingReading - input.openingReading
  let openingReading ← store 14 3 input.openingReading
  let closingReading ← store 14 3 input.closingReading
  let litresSold ← store 14 3 litres
  let unitPrice ← store 14 2 input.unitPrice
  let expectedValue ← store 14 2 (litres * input.unitPrice)
  return ⟨input.shiftId, input.nozzleId, openingReading, closingReading, litresSold, unitPrice,
    expectedValue⟩

/-- `InsertCloseLine`: a nozzle has at most one line on a shift. -/
def insertCloseLine (db : ShiftDb) (input : CloseLineInput) : Except PgError CloseLine :=
  match input.row with
  | none => .error .numericOverflow
  | some l =>
    if ∃ l' ∈ db.lines, l'.shiftId = input.shiftId ∧ l'.nozzleId = input.nozzleId then
      .error .uniqueViolation
    else .ok l

def findLine (db : ShiftDb) (shift nozzle : Uuid) : Option CloseLine :=
  db.lines.find? fun l ↦ l.shiftId = shift ∧ l.nozzleId = nozzle

/-- The figures of a line after its closing has been corrected: litres and value are computed from
the frozen opening and price. -/
def CloseLine.recompute (l : CloseLine) (newClosing : ℚ) : Option CloseLine := do
  let litres := newClosing - (l.openingReading : ℚ) / 10 ^ 3
  let closingReading ← store 14 3 newClosing
  let litresSold ← store 14 3 litres
  let expectedValue ← store 14 2 (litres * ((l.unitPrice : ℚ) / 10 ^ 2))
  return { l with closingReading, litresSold, expectedValue }

/-- `RecomputeCloseLineClosing`; no row is `ErrCloseLineNotFound`. -/
def recomputeCloseLine (db : ShiftDb) (shift nozzle : Uuid) (newClosing : ℚ) :
    Except PgError (Option CloseLine) :=
  match findLine db shift nozzle with
  | none => .ok none
  | some l =>
    match l.recompute newClosing with
    | none => .error .numericOverflow
    | some l' => .ok (some l')

/-- `SumExpectedForShift`; `none` is the overflow of its cast. -/
def sumExpected (db : ShiftDb) (shift : Uuid) : Option ℤ :=
  store 14 2 ((((db.lines.filter (·.shiftId = shift)).map (·.expectedValue)).sum : ℤ) / 10 ^ 2 : ℚ)

/-- The row that `CloseShift` writes. -/
def Shift.close (s : Shift) (actor : Uuid) (now : ℤ) : Shift :=
  { s with status := .closed, closedBy := some actor, closedAt := some now }

/-- What the handlers of other modules do to the rows read here, without their own guards. -/
inductive Elsewhere where
  | fixtures (f : Fixtures)
  | openShift (stationId : Uuid) (openedAt : ℤ)
  | approveShift (id : Uuid)

/-! ## The database -/

/-- The statements. An `UPDATE` of a row is two of them with a lock in between: the row is found on
the snapshot of the statement's start and read again under the lock. -/
inductive Query where
  | getShift (id : Uuid)
  | isAttendantOnShift (shift user : Uuid)
  | getNozzle (id : Uuid)
  | nozzleAssigned (shift nozzle : Uuid) (attendant : Option Uuid)
  | expectedOpening (shift : Shift) (nozzle : Uuid)
  | capture (input : CaptureInput)
  | getReading (id : Uuid)
  | activeClosingRejected (shift nozzle : Uuid)
  | findActive (id : Uuid)
  | supersede (id : Uuid)
  | activeReading (shift nozzle : Uuid) (type : ReadingType)
  | insertVerification (input : VerificationInput)
  | findHold (reading : Uuid)
  | replaceHold (input : VerificationInput)
  | unverifiedClosing (shift : Uuid)
  | findLine (shift nozzle : Uuid)
  | recomputeCloseLine (shift nozzle : Uuid) (newClosing : ℚ)
  | listNozzleAssignments (shift : Uuid)
  | listActive (shift : Uuid)
  | listDips (shift : Uuid)
  | finalClosingOverrides (shift : Uuid)
  | rollbackNozzles (shift : Uuid)
  | insertCloseLine (input : CloseLineInput)
  | closeShift (id actor : Uuid) (now : ℤ)
  | sumExpected (shift : Uuid)
  | elsewhere (e : Elsewhere)

abbrev Reply : Query → Type
  | .getShift _ => Option Shift
  | .isAttendantOnShift _ _ => Bool
  | .getNozzle _ => Option Nozzle
  | .nozzleAssigned _ _ _ => Bool
  | .expectedOpening _ _ => Option ℤ
  | .capture _ => Except PgError MeterReading
  | .getReading _ => Option MeterReading
  | .activeClosingRejected _ _ => Bool
  | .findActive _ => Bool
  | .supersede _ => Bool
  | .activeReading _ _ _ => Option MeterReading
  | .insertVerification _ => Except PgError Verification
  | .findHold _ => Bool
  | .replaceHold _ => Except PgError (Option Verification)
  | .unverifiedClosing _ => List MeterReading
  | .findLine _ _ => Bool
  | .recomputeCloseLine _ _ _ => Except PgError (Option CloseLine)
  | .listNozzleAssignments _ => List NozzleAssignment
  | .listActive _ => List MeterReading
  | .listDips _ => List DipReading
  | .finalClosingOverrides _ => List (Uuid × ℤ)
  | .rollbackNozzles _ => List Uuid
  | .insertCloseLine _ => Except PgError CloseLine
  | .closeShift _ _ _ => Option Shift
  | .sumExpected _ => Option ℤ
  | .elsewhere _ => Unit

inductive Write where
  | insertReading (m : MeterReading)
  | supersede (id : Uuid)
  | insertVerification (v : Verification)
  | setVerification (v : Verification)
  | insertLine (l : CloseLine)
  | setLine (l : CloseLine)
  | insertShift (s : Shift)
  | setShift (s : Shift)
  | setFixtures (f : Fixtures)

def ShiftDb.apply (db : ShiftDb) : Write → ShiftDb
  | .insertReading m => { db with readings := db.readings ++ [m] }
  | .supersede id =>
    { db with readings := db.readings.map fun m ↦ if m.id = id then m.supersede else m }
  | .insertVerification v => { db with verifications := db.verifications ++ [v] }
  | .setVerification v =>
    { db with verifications := db.verifications.map fun v' ↦
        if v'.readingId = v.readingId then v else v' }
  | .insertLine l => { db with lines := db.lines ++ [l] }
  | .setLine l =>
    { db with lines := db.lines.map fun l' ↦
        if l'.shiftId = l.shiftId ∧ l'.nozzleId = l.nozzleId then l else l' }
  | .insertShift s => { db with shifts := db.shifts ++ [s] }
  | .setShift s => { db with shifts := db.shifts.map fun s' ↦ if s'.id = s.id then s else s' }
  | .setFixtures f => { db with fixtures := f }

/-- The writes of the other modules. -/
def Elsewhere.writes (db : ShiftDb) (n : ℕ) : Elsewhere → List Write
  | .fixtures f => [.setFixtures f]
  | .openShift stationId openedAt => [.insertShift ⟨n, stationId, .opened, openedAt, none, none⟩]
  | .approveShift id =>
    ((db.shifts.find? fun s ↦ s.id = id ∧ s.status = .closed).map fun s ↦
      Write.setShift { s with status := .approved }).toList

def exec (env : Env) : (q : Query) → (committed view : ShiftDb) → ℕ → List Write × Reply q
  | .getShift id, _, db, _ => ([], db.shifts.find? (·.id = id))
  | .isAttendantOnShift shift user, _, db, _ =>
    ([], decide ((shift, user) ∈ db.fixtures.attendants))
  | .getNozzle id, _, db, _ => ([], db.fixtures.nozzles.find? (·.id = id))
  | .nozzleAssigned shift nozzle attendant, _, db, _ =>
    ([], decide (∃ a ∈ db.fixtures.assignments, a.shiftId = shift ∧ a.nozzleId = nozzle ∧
      ∀ user ∈ attendant, a.attendantId = user))
  | .expectedOpening shift nozzle, _, db, _ => ([], expectedOpening env db shift nozzle)
  | .capture input, _, db, n => logged .insertReading (capture db n input)
  | .getReading id, _, db, _ => ([], db.readings.find? (·.id = id))
  | .activeClosingRejected shift nozzle, _, db, _ => ([], activeClosingRejected db shift nozzle)
  | .findActive id, _, db, _ => ([], decide (∃ m ∈ db.readings, m.id = id ∧ m.status = .active))
  | .supersede id, _, db, _ =>
    if ∃ m ∈ db.readings, m.id = id ∧ m.status = .active then ([.supersede id], true)
    else ([], false)
  | .activeReading shift nozzle type, _, db, _ => ([], activeReading db shift nozzle type)
  | .insertVerification input, _, db, _ => logged .insertVerification (insertVerification db input)
  | .findHold reading, _, db, _ => ([], (findHold db reading).isSome)
  | .replaceHold input, _, db, _ => loggedRow .setVerification (replaceHold db input)
  | .unverifiedClosing shift, _, db, _ => ([], unverifiedClosing db shift)
  | .findLine shift nozzle, _, db, _ => ([], (findLine db shift nozzle).isSome)
  | .recomputeCloseLine shift nozzle newClosing, _, db, _ =>
    loggedRow .setLine (recomputeCloseLine db shift nozzle newClosing)
  | .listNozzleAssignments shift, _, db, _ =>
    ([], db.fixtures.assignments.filter (·.shiftId = shift))
  | .listActive shift, _, db, _ => ([], listActive db shift)
  | .listDips shift, _, db, _ =>
    ([], db.fixtures.dips.filter fun d ↦ d.shiftId = shift ∧ d.status = .active)
  | .finalClosingOverrides shift, _, db, _ => ([], finalClosingOverrides db shift)
  | .rollbackNozzles shift, _, db, _ => ([], rollbackNozzles db shift)
  | .insertCloseLine input, _, db, _ => logged .insertLine (insertCloseLine db input)
  | .closeShift id actor now, _, db, _ =>
    loggedUpdate .setShift ((db.shifts.find? (·.id = id)).map (·.close actor now))
  | .sumExpected shift, _, db, _ => ([], sumExpected db shift)
  | .elsewhere e, _, db, n => (e.writes db n, ())

/-- What a lock is taken on: a row, or the key of a unique index that an insert waits for. -/
inductive LockKey where
  | shift (id : Uuid)
  | activeReading (shift nozzle : Uuid) (type : ReadingType)
  | reading (id : Uuid)
  | verification (reading : Uuid)
  | closeLine (shift nozzle : Uuid)
  deriving DecidableEq

/-- The refusals, as the response states them. -/
inductive ShiftError where
  | http (status : ℕ) (error : String)
  | coded (status : ℕ) (error code : String)
  | openingBelowExpected (expectedOpeningReading : ℤ)
  | missingReadings (missingMeterNozzles missingDipTanks meterRollbackNozzles : List Uuid)

inductive ShiftResult where
  | reading (m : MeterReading)
  | verification (v : Verification)
  | verified (newlyVerified : ℕ)
  | closed (shift : Shift) (lines : List CloseLine) (expectedCash : ℤ)
  | done

/-- The shifts as a database of transactions. -/
@[reducible] def schema (env : Env) : Schema where
  Db := ShiftDb
  Write := Write
  Query := Query
  Reply := Reply
  Key := LockKey
  Result := ShiftResult
  Error := ShiftError
  apply := ShiftDb.apply
  exec := exec env

instance : Refusals (schema env) := ⟨.http⟩

end FuelGrid.Forecourt
