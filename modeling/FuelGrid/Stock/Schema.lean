import FuelGrid.Sql.Numeric
import FuelGrid.Sql.Txn
import Mathlib.Data.List.MinMax

/-!
# The stock ledger and its reconciliations

The tables and the SQL statements of `internal/inventory/repo.go`, `internal/inventory/sales.go`,
`internal/inventory/periods.go`, `internal/reconciliation/repo.go` and the transfer part of
`internal/enterprise/central_commercial.go`, as a `Sql.Schema`. One tenant's rows are modelled.
-/

namespace FuelGrid.Stock

open Sql

/-! ## Tables

Litre columns are `numeric(14,3)` and are held in thousandths of a litre. The id and the seq of an
inserted row are both the machine's stamp. -/

/-- The litre-flow category of a ledger row. -/
inductive MovementType where
  | opening | delivery | sales | adjustment | transfer
  deriving DecidableEq

/-- What caused a ledger row. -/
inductive SourceRefType where
  | opening | delivery | shift | adjustment | reconciliation | transfer | correction
  deriving DecidableEq

inductive MovementStatus where
  | posted | reversed
  deriving DecidableEq

/-- One row of a tank's stock ledger. -/
structure Movement where
  id : Uuid
  seq : ℕ
  tankId : Uuid
  movementType : MovementType
  sourceRefType : Option SourceRefType
  sourceRefId : Option Uuid
  litres : ℤ
  balanceAfter : ℤ
  supersedesId : Option Uuid
  status : MovementStatus
  deriving DecidableEq

/-- The data needed to append one movement. `litres` is the decimal that is bound to the numeric
column, before rounding. -/
structure PostInput where
  tankId : Uuid
  movementType : MovementType
  sourceRefType : Option SourceRefType
  sourceRefId : Option Uuid
  litres : ℚ
  supersedesId : Option Uuid

inductive TransferStatus where
  | draft | approved | dispatched | received | cancelled
  deriving DecidableEq

/-- A stock transfer order, with the table's checks on its litres and its tanks. -/
structure Transfer where
  id : Uuid
  fromTankId : Uuid
  toTankId : Uuid
  productId : Uuid
  litres : ℤ
  status : TransferStatus
  outMovementId : Option Uuid
  inMovementId : Option Uuid
  /-- `chk_sto_litres` -/
  litres_pos : 0 < litres
  /-- `chk_sto_distinct` -/
  tanks_ne : fromTankId ≠ toTankId

inductive ReconciliationStatus where
  | draft | exception | sealed
  deriving DecidableEq

/-- The figures of a reconciliation as they are stored: litres in thousandths, `variance_percent`
in units of `10⁻⁴` and `tolerance_percent` in units of `10⁻²`. -/
structure Figures where
  openingBook : ℤ
  deliveriesTotal : ℤ
  salesTotal : ℤ
  adjustmentsTotal : ℤ
  closingBook : ℤ
  closingPhysical : ℤ
  varianceLitres : ℤ
  variancePercent : ℤ
  tolerancePercent : ℤ
  throughSeq : ℕ
  deriving DecidableEq

/-- One row of `tank_reconciliations`. -/
structure Reconciliation extends Figures where
  id : Uuid
  tankId : Uuid
  operatingDayId : Uuid
  status : ReconciliationStatus
  deriving DecidableEq

/-- The committed rows, movements in the order of their commits. -/
structure StockDb where
  movements : List Movement
  transfers : List Transfer
  reconciliations : List Reconciliation
  /-- `product_id` of each tank. -/
  tankProduct : Uuid → Option Uuid

/-! ## Reading the ledger -/

/-- The genuine opening of a tank: posted and not itself a reversal contra
(`hasOpeningPredicate`). -/
def Movement.IsOpening (m : Movement) : Prop :=
  m.movementType = .opening ∧ m.status = .posted ∧ m.sourceRefType ≠ some .correction
  deriving Decidable

/-- Two rows that one of the partial unique indexes does not allow together. -/
def Movement.Conflicts (m m' : Movement) : Prop :=
  -- uq_stock_mvt_one_opening
  (m.tankId = m'.tankId ∧ m.IsOpening ∧ m'.IsOpening) ∨
  -- uq_stock_mvt_sales_per_shift_tank
  (m.tankId = m'.tankId ∧ m.sourceRefId = m'.sourceRefId ∧ m.sourceRefId.isSome ∧
    m.movementType = .sales ∧ m'.movementType = .sales ∧
    m.sourceRefType = some .shift ∧ m'.sourceRefType = some .shift) ∨
  -- idx_stock_mvt_delivery_source_once
  (m.sourceRefId = m'.sourceRefId ∧ m.sourceRefId.isSome ∧
    m.movementType = .delivery ∧ m'.movementType = .delivery ∧
    m.sourceRefType = some .delivery ∧ m'.sourceRefType = some .delivery ∧
    m.supersedesId = none ∧ m'.supersedesId = none)
  deriving Decidable

def Movement.IsSaleOf (shift : Uuid) (m : Movement) : Prop :=
  m.sourceRefType = some .shift ∧ m.sourceRefId = some shift ∧ m.movementType = .sales
  deriving Decidable

def sumLitres (l : List Movement) : ℤ := (l.map (·.litres)).sum

@[simp] theorem sumLitres_nil : sumLitres [] = 0 := rfl

@[simp] theorem sumLitres_cons (m : Movement) (l : List Movement) :
    sumLitres (m :: l) = m.litres + sumLitres l := by simp [sumLitres]

@[simp] theorem sumLitres_append (l l' : List Movement) :
    sumLitres (l ++ l') = sumLitres l + sumLitres l' := by simp [sumLitres]

def typeTotal (k : MovementType) (l : List Movement) : ℤ :=
  sumLitres (l.filter (·.movementType = k))

/-- The highest seq of a list of rows, `d` when there are none. -/
def maxSeq (d : ℕ) (l : List Movement) : ℕ := (l.map (·.seq)).foldr max d

namespace StockDb

def ledger (db : StockDb) (tank : Uuid) : List Movement := db.movements.filter (·.tankId = tank)

/-- `CurrentBalance`: the tank's book stock. -/
def currentBalance (db : StockDb) (tank : Uuid) : ℤ := sumLitres (db.ledger tank)

def sealedFor (db : StockDb) (tank : Uuid) : List Reconciliation :=
  db.reconciliations.filter fun r ↦ r.tankId = tank ∧ r.status = .sealed

/-- `HasOpeningBalance`: the tank has a genuine opening. -/
def HasOpening (db : StockDb) (tank : Uuid) : Prop := ∃ m ∈ db.ledger tank, m.IsOpening
  deriving Decidable

/-- `GenesisOpeningLitres`: litres and seq of the tank's latest genuine opening. -/
def genesisOpeningLitres (db : StockDb) (tank : Uuid) : Option (ℤ × ℕ) :=
  (((db.ledger tank).filter (·.IsOpening)).argmax (·.seq)).map fun m ↦ (m.litres, m.seq)

end StockDb

/-! ## Statements

Two things are left to a parameter `Env`. The lock key of a tank is `hashtextextended(tank, 0)`,
about which nothing is assumed, so tanks may share a key. `LastSealedForTank` orders by
`through_seq` only, so between rows with equal `through_seq` any may be returned. -/

/-- Errors raised by the database. -/
inductive PgError where
  | uniqueViolation
  | numericOverflow
  deriving DecidableEq

/-- The row an insert adds, with the two rounded figures. -/
def PostInput.row (input : PostInput) (n : ℕ) (litres balanceAfter : ℤ) : Movement where
  id := n
  seq := n
  tankId := input.tankId
  movementType := input.movementType
  sourceRefType := input.sourceRefType
  sourceRefId := input.sourceRefId
  litres := litres
  balanceAfter := balanceAfter
  supersedesId := input.supersedesId
  status := .posted

/-- `INSERT INTO stock_movements`: `litres` is the input rounded to the column, `balance_after` is
the tank's ledger sum plus the input, and that sum is rounded in turn. -/
def insertMovement (db : StockDb) (n : ℕ) (input : PostInput) : Except PgError Movement :=
  match store 14 3 input.litres,
      store 14 3 ((db.currentBalance input.tankId : ℚ) / 10 ^ 3 + input.litres) with
  | some litres, some balanceAfter =>
    if ∃ m ∈ db.movements, (input.row n litres balanceAfter).Conflicts m then
      .error .uniqueViolation
    else .ok (input.row n litres balanceAfter)
  | _, _ => .error .numericOverflow

/-- The exact inputs of a live reconciliation. -/
structure ComputeInput where
  tankId : Uuid
  openingBook : ℤ
  closingPhysical : ℤ
  tolerancePercent : ℤ
  fromSeq : ℕ

/-- The figures `Compute` derives; `variancePercent` is not rounded yet. -/
structure Computed where
  openingBook : ℤ
  deliveriesTotal : ℤ
  salesTotal : ℤ
  adjustmentsTotal : ℤ
  closingBook : ℤ
  closingPhysical : ℤ
  varianceLitres : ℤ
  variancePercent : ℚ
  tolerancePercent : ℤ
  withinTolerance : Bool
  /-- physical − book; the litres the seal posts -/
  writeOff : ℤ
  writeOffNonZero : Bool
  throughSeq : ℕ
  deriving DecidableEq

/-- `Compute`: the period sums after the watermark, by movement type, and what follows from
them. -/
def compute (db : StockDb) (input : ComputeInput) : Computed :=
  let period := (db.ledger input.tankId).filter (input.fromSeq < ·.seq)
  let openingTotal := typeTotal .opening period
  let deliveriesTotal := typeTotal .delivery period
  let salesTotal := -typeTotal .sales period
  let adjustmentsTotal := typeTotal .adjustment period
  let closingBook :=
    input.openingBook + openingTotal + deliveriesTotal - salesTotal + adjustmentsTotal
  let closingPhysical := input.closingPhysical
  { openingBook := input.openingBook
    deliveriesTotal
    salesTotal
    adjustmentsTotal
    closingBook
    closingPhysical
    varianceLitres := closingBook - closingPhysical
    variancePercent :=
      if closingBook = 0 then 0 else (closingBook - closingPhysical : ℚ) / closingBook * 100
    tolerancePercent := input.tolerancePercent
    -- tolerance_percent is in hundredths of a percent
    withinTolerance :=
      decide (|closingBook - closingPhysical| * 10000 ≤ |closingBook| * input.tolerancePercent)
    writeOff := closingPhysical - closingBook
    writeOffNonZero := decide (closingPhysical - closingBook ≠ 0)
    throughSeq := maxSeq input.fromSeq period }

/-- The figures of a draft or a seal, before they are stored. -/
structure DraftInput where
  tankId : Uuid
  operatingDayId : Uuid
  computed : Computed
  throughSeq : ℕ
  status : ReconciliationStatus

/-- Round the figures to their columns; `none` when one of them does not fit. -/
def DraftInput.figures (input : DraftInput) : Option Figures := do
  let c := input.computed
  let litres (u : ℤ) : Option ℤ := store 14 3 ((u : ℚ) / 10 ^ 3)
  let openingBook ← litres c.openingBook
  let deliveriesTotal ← litres c.deliveriesTotal
  let salesTotal ← litres c.salesTotal
  let adjustmentsTotal ← litres c.adjustmentsTotal
  let closingBook ← litres c.closingBook
  let closingPhysical ← litres c.closingPhysical
  let varianceLitres ← litres c.varianceLitres
  let variancePercent ← store 10 4 c.variancePercent
  let tolerancePercent ← store 5 2 ((c.tolerancePercent : ℚ) / 10 ^ 2)
  return { openingBook, deliveriesTotal, salesTotal, adjustmentsTotal, closingBook,
           closingPhysical, varianceLitres, variancePercent, tolerancePercent,
           throughSeq := input.throughSeq }

/-- `UpsertDraft`: insert the reconciliation of a tank and day, or refresh it unless it is sealed;
no row is returned when it is. -/
def upsertDraft (db : StockDb) (n : ℕ) (input : DraftInput) :
    Except PgError (Option Reconciliation) :=
  match input.figures with
  | none => .error .numericOverflow
  | some fig =>
    match db.reconciliations.find? fun r ↦
        r.tankId = input.tankId ∧ r.operatingDayId = input.operatingDayId with
    | none => .ok (some ⟨fig, n, input.tankId, input.operatingDayId, input.status⟩)
    | some r =>
      if r.status = .sealed then .ok none
      else .ok (some { r with toFigures := fig, status := input.status })

/-- `Seal`: write the final figures to a row that is not sealed yet; no row is returned when there
is none. -/
def sealReconciliation (db : StockDb) (id : Uuid) (input : DraftInput) :
    Except PgError (Option Reconciliation) :=
  match input.figures with
  | none => .error .numericOverflow
  | some fig =>
    match db.reconciliations.find? fun r ↦ r.id = id ∧ r.status ≠ .sealed with
    | none => .ok none
    | some r => .ok (some { r with toFigures := fig, status := .sealed })

/-- The statements. An `UPDATE` or a `SELECT … FOR UPDATE` of one row is two of them with a lock in
between: the row is found on the snapshot of the statement's start and, once the lock is held, is
read again. -/
inductive Query where
  | hasOpening (tank : Uuid)
  | insertMovement (input : PostInput)
  | findPosted (id : Uuid)
  | markReversed (id : Uuid)
  | getMovement (id : Uuid)
  | findTransfer (id : Uuid)
  | lockedTransfer (id : Uuid)
  | tankProduct (tank : Uuid)
  | sufficientStock (tank : Uuid) (litres : ℤ)
  | receiveTransfer (id outId inId : Uuid)
  | maxSeqForTank (tank : Uuid)
  | lastSealedForTank (tank : Uuid)
  | genesisOpeningLitres (tank : Uuid)
  | compute (input : ComputeInput)
  | getReconciliation (id : Uuid)
  | getForTankDay (tank day : Uuid)
  | upsertDraft (input : DraftInput)
  | findUnsealed (id : Uuid)
  | sealReconciliation (id : Uuid) (input : DraftInput)
  | salesPostedForShift (shift : Uuid)

abbrev Reply : Query → Type
  | .hasOpening _ => Bool
  | .insertMovement _ => Except PgError Movement
  | .findPosted _ => Bool
  | .markReversed _ => Option Movement
  | .getMovement _ => Option Movement
  | .findTransfer _ => Bool
  | .lockedTransfer _ => Option Transfer
  | .tankProduct _ => Option Uuid
  | .sufficientStock _ _ => Bool
  | .receiveTransfer _ _ _ => Option Transfer
  | .maxSeqForTank _ => ℕ
  | .lastSealedForTank _ => Option Reconciliation
  | .genesisOpeningLitres _ => Option (ℤ × ℕ)
  | .compute _ => Computed
  | .getReconciliation _ => Option Reconciliation
  | .getForTankDay _ _ => Option Reconciliation
  | .upsertDraft _ => Except PgError (Option Reconciliation)
  | .findUnsealed _ => Bool
  | .sealReconciliation _ _ => Except PgError (Option Reconciliation)
  | .salesPostedForShift _ => Bool

inductive Write where
  | insertMovement (m : Movement)
  | markReversed (id : Uuid)
  | receiveTransfer (id outId inId : Uuid)
  | putReconciliation (r : Reconciliation)

/-- The status annotation of a reversal; every other column is frozen by the immutability
trigger. -/
def Movement.reverse (id : Uuid) (m : Movement) : Movement :=
  if m.id = id then { m with status := .reversed } else m

def Transfer.receive (id outId inId : Uuid) (t : Transfer) : Transfer :=
  if t.id = id then
    { t with status := .received, outMovementId := some outId, inMovementId := some inId }
  else t

/-- Replace the row with the id of `r`, or add `r`. -/
def putReconciliation (r : Reconciliation) (l : List Reconciliation) : List Reconciliation :=
  if ∃ r' ∈ l, r'.id = r.id then l.map fun r' ↦ if r'.id = r.id then r else r' else l ++ [r]

def StockDb.apply (db : StockDb) : Write → StockDb
  | .insertMovement m => { db with movements := db.movements ++ [m] }
  | .markReversed id => { db with movements := db.movements.map (Movement.reverse id) }
  | .receiveTransfer id outId inId =>
    { db with transfers := db.transfers.map (Transfer.receive id outId inId) }
  | .putReconciliation r =>
    { db with reconciliations := putReconciliation r db.reconciliations }

/-- What the statements leave open. -/
structure Env where
  /-- The lock key of a tank. -/
  hash : Uuid → ℤ
  /-- The row `ORDER BY through_seq DESC LIMIT 1` returns; the stamp stands for whatever else the
  choice depends on. -/
  pick : ℕ → List Reconciliation → Option Reconciliation
  pick_nil : ∀ n, pick n [] = none
  /-- The row returned is one with the highest `through_seq`. -/
  pick_cons : ∀ n r l, ∃ r' ∈ r :: l, pick n (r :: l) = some r' ∧
    ∀ r'' ∈ r :: l, r''.throughSeq ≤ r'.throughSeq

/-- Every tank has a key of its own, and among equal rows the first is returned. -/
def Env.plain : Env where
  hash tank := tank
  pick _ l := l.argmax (·.throughSeq)
  pick_nil _ := rfl
  pick_cons n r l := by
    cases h : (r :: l).argmax (·.throughSeq) with
    | none => exact absurd (List.argmax_eq_none.mp h) (by simp)
    | some r' =>
      exact ⟨r', List.argmax_mem h, rfl, fun r'' hr'' ↦
        List.le_of_mem_argmax (f := fun r : Reconciliation ↦ r.throughSeq) hr'' h⟩

/-- No rows, and every tank with product 1. -/
def StockDb.empty : StockDb where
  movements := []
  transfers := []
  reconciliations := []
  tankProduct _ := some 1

variable (env : Env)

/-- Log a change made to the row that was found, if there is one. -/
def loggedUpdate {α : Type} (w : Write) (f : α → α) : Option α → List Write × Option α
  | some a => ([w], some (f a))
  | none => ([], none)

/-- Execute a statement. The reads of `GetMovement`, `LastSealedForTank`, `GenesisOpeningLitres`
and the reconciliation lookups go through the pool, so they see committed rows only. -/
def exec : (q : Query) → (committed view : StockDb) → ℕ → List Write × Reply q
  | .hasOpening tank, _, db, _ => ([], decide (db.HasOpening tank))
  | .insertMovement input, _, db, n => logged .insertMovement (insertMovement db n input)
  | .findPosted id, _, db, _ => ([], decide (∃ m ∈ db.movements, m.id = id ∧ m.status = .posted))
  | .markReversed id, _, db, _ =>
    loggedUpdate (.markReversed id) (Movement.reverse id)
      (db.movements.find? fun m ↦ m.id = id ∧ m.status = .posted)
  | .getMovement id, db, _, _ => ([], db.movements.find? (·.id = id))
  | .findTransfer id, _, db, _ => ([], decide (∃ t ∈ db.transfers, t.id = id))
  | .lockedTransfer id, _, db, _ => ([], db.transfers.find? (·.id = id))
  | .tankProduct tank, _, db, _ => ([], db.tankProduct tank)
  | .sufficientStock tank litres, _, db, _ => ([], decide (litres ≤ db.currentBalance tank))
  | .receiveTransfer id outId inId, _, db, _ =>
    loggedUpdate (.receiveTransfer id outId inId) (Transfer.receive id outId inId)
      (db.transfers.find? (·.id = id))
  | .maxSeqForTank tank, _, db, _ => ([], maxSeq 0 (db.ledger tank))
  | .lastSealedForTank tank, db, _, n => ([], env.pick n (db.sealedFor tank))
  | .genesisOpeningLitres tank, db, _, _ => ([], db.genesisOpeningLitres tank)
  | .compute input, _, db, _ => ([], compute db input)
  | .getReconciliation id, db, _, _ => ([], db.reconciliations.find? (·.id = id))
  | .getForTankDay tank day, db, _, _ =>
    ([], db.reconciliations.find? fun r ↦ r.tankId = tank ∧ r.operatingDayId = day)
  | .upsertDraft input, _, db, n => loggedRow .putReconciliation (upsertDraft db n input)
  | .findUnsealed id, _, db, _ =>
    ([], decide (∃ r ∈ db.reconciliations, r.id = id ∧ r.status ≠ .sealed))
  | .sealReconciliation id input, _, db, _ =>
    loggedRow .putReconciliation (sealReconciliation db id input)
  | .salesPostedForShift shift, _, db, _ =>
    ([], decide (∃ m ∈ db.movements, m.IsSaleOf shift ∧ m.status = .posted))

/-- What a lock is taken on: an advisory key, or a row of one of the tables. -/
inductive LockKey where
  | advisory (key : ℤ)
  | movement (id : Uuid)
  | transfer (id : Uuid)
  | reconciliation (tank day : Uuid)
  deriving DecidableEq

/-- Why a handler or a repository function fails. -/
inductive StockError where
  | errMovementNotFound
  | errAlreadyReversed
  | errNoOpeningBalance
  | errOpeningExists
  | errNotFound
  | errNoRows
  | errBadState
  | errProductMismatch
  | errInsufficientStock
  | errSealed
  | pg (e : PgError)
  | http (code : ℕ) (message : String)
  deriving DecidableEq

inductive StockResult where
  | done
  | computed (c : Computed)
  | reconciliation (r : Reconciliation)
  /-- The stock-outs of a shift, and its tanks without an opening balance. -/
  | sales (posted : List Movement) (skipped : List Uuid)
  deriving DecidableEq

/-- The stock tables as a database for transactions. -/
@[reducible] def schema : Schema where
  Db := StockDb
  Write := Write
  Query := Query
  Reply := Reply
  Key := LockKey
  Result := StockResult
  Error := StockError
  apply := StockDb.apply
  exec := exec env

end FuelGrid.Stock
