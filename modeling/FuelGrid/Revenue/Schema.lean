import FuelGrid.Accounting.Calls
import FuelGrid.Credit.Operations
import FuelGrid.Sql.Select

/-!
# Sales, tenders and the revenue day

The tables and the SQL statements of `internal/revenue` and `internal/payments`: recognized sales
and their voids, the payments of a shift, the M-Pesa collections, and the revenue day that rolls
them up. A credit tender also charges the customer and posts to the journal, so the receivables and
the general ledger sit in this database as parts (`creditPart`, `ledgerPart`). One tenant's rows are
modelled.
-/

namespace FuelGrid.Revenue

open Sql

inductive Permission where
  | paymentRecord | saleVoidRequest | saleVoidApprove | mpesaManage

structure Env where
  /-- The policy engine: whether a user has a permission at a station. -/
  can : Uuid → Permission → Uuid → Bool
  /-- Whether a user holds `credit.override_limit` in any scope. -/
  holdsOverride : Uuid → Bool
  /-- `strings.TrimSpace` -/
  trimSpace : String → String
  /-- Whether `parseDecimal` takes the amount and the `float64` it returns is not `< 0`, which holds
  of `NaN`. -/
  nonNegative : Numeric → Bool
  /-- Whether `parseDecimal` takes the amount and the `float64` it returns is not `<= 0`, which
  holds of `NaN`. -/
  positive : Numeric → Bool
  /-- The date of an instant. -/
  dateOf : ℤ → ℤ
  credit : Credit.Env
  chart : Accounting.Chart

/-! ## Tables

Money is `numeric(14,2)` in cents, with `⊤` for `NaN`; litres are in thousandths. Sales, shifts and
operating days are written by other modules and do not change here. -/

structure Shift where
  id : Uuid
  stationId : Uuid
  operatingDayId : Uuid

structure OperatingDay where
  id : Uuid
  stationId : Uuid
  businessDate : ℤ
  deriving DecidableEq

/-- A recognized sale: one nozzle of an approved shift. -/
structure Sale where
  id : Uuid
  shiftId : Uuid
  stationId : Uuid
  operatingDayId : Uuid
  litres : ℤ
  grossAmount : Money
  taxAmount : Money
  netAmount : Money
  /-- Unknown when the tank has no costed delivery. -/
  cogsAmount : Option Money
  marginAmount : Option Money

/-- The `reversal_*` columns: the amounts of the voided sale, negated. -/
structure Reversal where
  litres : ℤ
  gross : Money
  tax : Money
  net : Money
  cogs : Option Money
  margin : Option Money
  deriving DecidableEq

inductive VoidStatus where
  | requested | approved | rejected
  deriving DecidableEq

structure SaleVoid where
  id : Uuid
  saleId : Uuid
  status : VoidStatus
  reason : String
  reversal : Option Reversal
  requestedBy : Uuid
  decidedBy : Option Uuid
  decisionNote : Option String
  /-- `chk_sale_void_reversal_on_approve` -/
  reversal_iff : reversal.isSome ↔ status = .approved
  deriving DecidableEq

inductive TenderType where
  | cash | mobileMoney | card | credit | voucher
  deriving DecidableEq

inductive PaymentStatus where
  | recorded | voided
  deriving DecidableEq

structure Payment where
  id : Uuid
  stationId : Uuid
  shiftId : Option Uuid
  customerId : Option Uuid
  tenderType : TenderType
  amount : Money
  reference : Option String
  receivedBy : Uuid
  receivedAt : ℤ
  status : PaymentStatus
  notes : Option String
  idempotencyKey : Option String
  /-- `chk_payments_amount` -/
  amount_nonneg : 0 ≤ amount

/-- Revenue net of approved voids. -/
structure DayRevenue where
  gross : Money
  net : Money
  tax : Money
  cogs : Money
  margin : Money
  deriving DecidableEq

/-- `TenderBreakdown`: recorded tenders by type. -/
structure TenderBreakdown where
  cash : Money
  mobileMoney : Money
  card : Money
  credit : Money
  voucher : Money
  total : Money
  deriving DecidableEq

inductive RevenueDayStatus where
  | draft | locked
  deriving DecidableEq

/-- A row of `revenue_days`: the rolled-up revenue close of a station and day. -/
structure RevenueDay where
  id : Uuid
  stationId : Uuid
  operatingDayId : Uuid
  businessDate : ℤ
  revenue : DayRevenue
  tenders : TenderBreakdown
  cashVariance : Money
  status : RevenueDayStatus
  lockedBy : Option Uuid
  lockedAt : Option ℤ

inductive MpesaStatus where
  | pending | paid | failed | cancelled
  deriving DecidableEq

/-- A row of `mpesa_transactions`: one collection on a customer's phone. -/
structure MpesaTransaction where
  id : Uuid
  stationId : Uuid
  checkoutRequestId : String
  amount : Money
  status : MpesaStatus
  resultCode : Option ℤ
  mpesaReceipt : Option String
  reconciledRevenueDayId : Option Uuid
  reconciledAt : Option ℤ

/-- A row of the outbox, by which other services learn what happened. -/
structure OutboxEvent where
  eventType : String
  entityType : String
  entityId : Uuid

structure RevenueDb where
  stations : List Uuid
  shifts : List Shift
  days : List OperatingDay
  sales : List Sale
  voids : List SaleVoid
  payments : List Payment
  revenueDays : List RevenueDay
  mpesa : List MpesaTransaction
  outbox : List OutboxEvent
  credit : Credit.CreditDb
  ledger : Accounting.AccountingDb

/-! ## Rolling up -/

/-- `COALESCE(SUM(s.f), 0) + COALESCE(SUM(v.g), 0)` -/
def netOfVoids (rows : List (Sale × Option SaleVoid)) (f : Sale → Option Money)
    (g : Reversal → Option Money) : Money :=
  sumOf (f ·.1) rows + sumOf (fun r ↦ (r.2.bind (·.reversal)).bind g) rows

/-- `DaySummary`. The litres are handed on as a float. -/
structure DaySummary extends DayRevenue where
  litresSold : ℤ
  saleCount : ℕ

structure ShiftReconciliation where
  tendered : Money
  recognized : Money
  variance : Money
  deriving DecidableEq

namespace RevenueDb

variable (db : RevenueDb)

/-- The sales of a station-day, `LEFT JOIN`ed with their approved voids. -/
def daySales (station day : Uuid) : List (Sale × Option SaleVoid) :=
  leftJoin (db.sales.filter fun s ↦ s.stationId = station ∧ s.operatingDayId = day)
    (db.voids.filter (·.status = .approved)) fun s v ↦ v.saleId = s.id

/-- The revenue part of `DaySummary` and of `ComputeDay`. -/
def dayRevenue (station day : Uuid) : DayRevenue where
  gross := netOfVoids (db.daySales station day) (some ·.grossAmount) (some ·.gross)
  net := netOfVoids (db.daySales station day) (some ·.netAmount) (some ·.net)
  tax := netOfVoids (db.daySales station day) (some ·.taxAmount) (some ·.tax)
  cogs := netOfVoids (db.daySales station day) (·.cogsAmount) (·.cogs)
  margin := netOfVoids (db.daySales station day) (·.marginAmount) (·.margin)

def daySummary (station day : Uuid) : DaySummary where
  toDayRevenue := db.dayRevenue station day
  litresSold := ((db.daySales station day).map (·.1.litres)).sum +
    sumOf (fun r ↦ (r.2.bind (·.reversal)).map (·.litres)) (db.daySales station day)
  saleCount := ((db.daySales station day).filter (·.2.isNone)).length

/-- `SELECT id FROM shifts WHERE operating_day_id = day` -/
def shiftsOfDay (day : Uuid) : List Uuid :=
  (db.shifts.filter (·.operatingDayId = day)).map (·.id)

/-- The recorded payments on the shifts of a station-day. -/
def dayPayments (station day : Uuid) : List Payment :=
  db.payments.filter fun p ↦
    p.stationId = station ∧ p.status = .recorded ∧ ∃ shift ∈ db.shiftsOfDay day,
    p.shiftId = some shift

/-- `DayTenders`, and the tender part of `ComputeDay`. -/
def dayTenders (station day : Uuid) : TenderBreakdown :=
  let paid (t : TenderType) : Money :=
    (((db.dayPayments station day).filter (·.tenderType = t)).map (·.amount)).sum
  { cash := paid .cash
    mobileMoney := paid .mobileMoney
    card := paid .card
    credit := paid .credit
    voucher := paid .voucher
    total := ((db.dayPayments station day).map (·.amount)).sum }

def reconcileShift (shift : Uuid) : ShiftReconciliation :=
  let tendered : Money := ((db.payments.filter fun p ↦
    p.shiftId = some shift ∧ p.status = .recorded).map (·.amount)).sum
  let recognized : Money := ((db.sales.filter (·.shiftId = shift)).map (·.grossAmount)).sum
  { tendered, recognized, variance := tendered - recognized }

end RevenueDb

/-! ## Statements -/

/-- Write a sum to a `numeric(14,2)` column. -/
def storeMoney (x : Money) : Option Money := (ofUnits 2 x).store 14 2

/-- What `ComputeDay` selects for a day. -/
structure DayFigures where
  businessDate : ℤ
  revenue : DayRevenue
  tenders : TenderBreakdown
  cashVariance : Money

/-- The figures as the columns take them; `none` if one does not fit. -/
def DayFigures.stored (f : DayFigures) : Option DayFigures := do
  let gross ← storeMoney f.revenue.gross
  let net ← storeMoney f.revenue.net
  let tax ← storeMoney f.revenue.tax
  let cogs ← storeMoney f.revenue.cogs
  let margin ← storeMoney f.revenue.margin
  let cash ← storeMoney f.tenders.cash
  let mobileMoney ← storeMoney f.tenders.mobileMoney
  let card ← storeMoney f.tenders.card
  let credit ← storeMoney f.tenders.credit
  let voucher ← storeMoney f.tenders.voucher
  let total ← storeMoney f.tenders.total
  let cashVariance ← storeMoney f.cashVariance
  return { businessDate := f.businessDate
           revenue := { gross, net, tax, cogs, margin }
           tenders := { cash, mobileMoney, card, credit, voucher, total }
           cashVariance }

/-- The `SELECT` of `ComputeDay`: no row when the operating day does not exist. -/
def dayFigures (db : RevenueDb) (station day : Uuid) : Option DayFigures :=
  (db.days.find? (·.id = day)).map fun od ↦
    { businessDate := od.businessDate
      revenue := db.dayRevenue station day
      tenders := db.dayTenders station day
      cashVariance := (db.dayTenders station day).total - (db.dayRevenue station day).gross }

/-- The upsert of `ComputeDay`: no row when the revenue day is locked. -/
def upsertDay (db : RevenueDb) (n : ℕ) (station day : Uuid) (figures : DayFigures) :
    Except PgError (Option RevenueDay) :=
  match figures.stored with
  | none => .error .numericOverflow
  | some f =>
    match db.revenueDays.find? fun d ↦ d.stationId = station ∧ d.operatingDayId = day with
    | none =>
      -- revenue_days_station_fk
      if station ∈ db.stations then
        .ok (some ⟨n, station, day, f.businessDate, f.revenue, f.tenders, f.cashVariance, .draft,
          none, none⟩)
      else .error .foreignKeyViolation
    | some d =>
      if d.status = .locked then .ok none
      else .ok (some { d with
        revenue := f.revenue, tenders := f.tenders, cashVariance := f.cashVariance })

/-- The update of `LockDay`. -/
def lockDay (db : RevenueDb) (id lockedBy : Uuid) (now : ℤ) : Option RevenueDay :=
  (db.revenueDays.find? fun d ↦ d.id = id ∧ d.status ≠ .locked).map fun d ↦
    { d with status := .locked, lockedBy := some lockedBy, lockedAt := some now }

/-- `RecordInput`, with the instant of the transaction. -/
structure RecordInput where
  stationId : Uuid
  shiftId : Option Uuid
  customerId : Option Uuid
  tenderType : TenderType
  amount : Numeric
  reference : Option String
  receivedBy : Uuid
  notes : Option String
  idempotencyKey : Option String
  now : ℤ

/-- The insert of `Record`. With a key that is taken it does nothing and returns no row; only a row
that goes in is checked for its customer. -/
def insertPayment (db : RevenueDb) (n : ℕ) (input : RecordInput) :
    Except PgError (Option Payment) :=
  match input.amount.store 14 2 with
  | none => .error .numericOverflow
  | some amount =>
    if amount_nonneg : 0 ≤ amount then
      if input.idempotencyKey.isSome ∧
          ∃ p ∈ db.payments, p.idempotencyKey = input.idempotencyKey then
        .ok none
      -- payments_customer_fk
      else if input.customerId.all fun c ↦ (db.credit.customer c).isSome then
        .ok (some {
          id := n
          stationId := input.stationId
          shiftId := input.shiftId
          customerId := input.customerId
          tenderType := input.tenderType
          amount
          reference := input.reference
          receivedBy := input.receivedBy
          receivedAt := input.now
          status := .recorded
          notes := input.notes
          idempotencyKey := input.idempotencyKey
          amount_nonneg })
      else .error .foreignKeyViolation
    else .error .checkViolation

/-- The insert of `RequestVoid`, with `uq_sale_void_active`. -/
def insertVoid (db : RevenueDb) (n : ℕ) (sale requestedBy : Uuid) (reason : String) :
    Except PgError SaleVoid :=
  if ∃ v ∈ db.voids, v.saleId = sale ∧ v.status ≠ .rejected then .error .uniqueViolation
  -- sale_void_sale_fk
  else if ∃ s ∈ db.sales, s.id = sale then
    .ok {
      id := n
      saleId := sale
      status := .requested
      reason
      reversal := none
      requestedBy
      decidedBy := none
      decisionNote := none
      reversal_iff := by decide }
  else .error .foreignKeyViolation

/-- The amounts of a sale negated. -/
def Sale.reversal (s : Sale) : Reversal where
  litres := -s.litres
  gross := -s.grossAmount
  tax := -s.taxAmount
  net := -s.netAmount
  cogs := s.cogsAmount.map (-·)
  margin := s.marginAmount.map (-·)

/-- The two ways to decide a void. -/
inductive Decision where
  | approve | reject

/-- The update of `ApproveVoid` or of `RejectVoid`. -/
def decideVoid (db : RevenueDb) (decision : Decision) (id decidedBy : Uuid)
    (note : Option String) : Option SaleVoid := do
  let v ← db.voids.find? fun v ↦ v.id = id ∧ v.status = .requested
  match decision with
  | .approve =>
    let s ← db.sales.find? (·.id = v.saleId)
    return { v with
      status := .approved, decidedBy := some decidedBy, decisionNote := note,
      reversal := some s.reversal, reversal_iff := by simp }
  | .reject =>
    return { v with
      status := .rejected, decidedBy := some decidedBy, decisionNote := note,
      reversal := none, reversal_iff := by simp }

/-- What the callback of a collection reports. -/
structure SettleInput where
  checkoutRequestId : String
  success : Bool
  resultCode : ℤ
  mpesaReceipt : String

/-- The update of `SettleMpesaByCheckoutID`. -/
def settleMpesa (db : RevenueDb) (input : SettleInput) : Option MpesaTransaction :=
  (db.mpesa.find? fun m ↦
    m.checkoutRequestId = input.checkoutRequestId ∧ m.status = .pending).map fun m ↦
    { m with
      status := if input.success then .paid else .failed
      resultCode := some input.resultCode
      mpesaReceipt := if input.mpesaReceipt = "" then none else some input.mpesaReceipt }

/-- The update of `ReconcileMpesa`. -/
def reconcileMpesa (db : RevenueDb) (id revenueDay : Uuid) (now : ℤ) : Option MpesaTransaction :=
  (db.mpesa.find? fun m ↦ m.id = id ∧ m.status = .paid).map fun m ↦
    { m with reconciledRevenueDayId := some revenueDay, reconciledAt := some now }

/-- The statements. An `UPDATE` or a `FOR UPDATE` of a row is two of them with a lock in between,
and so is an insert that a unique index may make wait: the row is found on the snapshot of the
statement's start, and looked at again under the lock. -/
inductive Query where
  | getShift (id : Uuid)
  | keyTaken (key : String)
  | insertPayment (input : RecordInput)
  | paymentByKey (key : String)
  | entryExistsForSource (sourceType : String) (sourceId : Uuid)
  | getCustomer (id : Uuid)
  | outbox (event : OutboxEvent)
  | getSale (id : Uuid)
  | getVoid (id : Uuid)
  | insertVoid (sale requestedBy : Uuid) (reason : String)
  | findVoid (id : Uuid)
  | decideVoid (decision : Decision) (id decidedBy : Uuid) (note : Option String)
  | dayFigures (station day : Uuid)
  | upsertDay (station day : Uuid) (figures : DayFigures)
  | findDraft (id : Uuid)
  | lockDay (id lockedBy : Uuid) (now : ℤ)
  | getDay (id : Uuid)
  | findMpesa (checkoutRequestId : String)
  | settleMpesa (input : SettleInput)
  | getMpesa (id : Uuid)
  | reconcileMpesa (id revenueDay : Uuid) (now : ℤ)
  | credit (q : Credit.Query)
  | ledger (q : Accounting.Query)

abbrev Reply : Query → Type
  | .getShift _ => Option Shift
  | .keyTaken _ => Bool
  | .insertPayment _ => Except PgError (Option Payment)
  | .paymentByKey _ => Option Payment
  | .entryExistsForSource _ _ => Bool
  | .getCustomer _ => Option Credit.Customer
  | .outbox _ => Unit
  | .getSale _ => Option Sale
  | .getVoid _ => Option SaleVoid
  | .insertVoid _ _ _ => Except PgError SaleVoid
  | .findVoid _ => Option SaleVoid
  | .decideVoid _ _ _ _ => Option SaleVoid
  | .dayFigures _ _ => Option DayFigures
  | .upsertDay _ _ _ => Except PgError (Option RevenueDay)
  | .findDraft _ => Option RevenueDay
  | .lockDay _ _ _ => Option RevenueDay
  | .getDay _ => Option RevenueDay
  | .findMpesa _ => Option MpesaTransaction
  | .settleMpesa _ => Option MpesaTransaction
  | .getMpesa _ => Option MpesaTransaction
  | .reconcileMpesa _ _ _ => Option MpesaTransaction
  | .credit q => Credit.Reply q
  | .ledger q => Accounting.Reply q

inductive Write where
  | insertPayment (p : Payment)
  | putVoid (v : SaleVoid)
  | putDay (d : RevenueDay)
  | setMpesa (m : MpesaTransaction)
  | insertOutbox (e : OutboxEvent)
  | credit (w : Credit.Write)
  | ledger (w : Accounting.Write)

def RevenueDb.apply (db : RevenueDb) : Write → RevenueDb
  | .insertPayment p => { db with payments := db.payments ++ [p] }
  | .putVoid v => { db with voids := putRow SaleVoid.id v db.voids }
  | .putDay d => { db with revenueDays := putRow RevenueDay.id d db.revenueDays }
  | .setMpesa m => { db with mpesa := putRow MpesaTransaction.id m db.mpesa }
  | .insertOutbox e => { db with outbox := db.outbox ++ [e] }
  | .credit w => { db with credit := db.credit.apply w }
  | .ledger w => { db with ledger := db.ledger.apply w }

variable (env : Env)

/-- Execute a statement. `GetShift`, `GetCustomer`, `GetSale`, `GetVoid`, `GetDayByID` and
`GetMpesa` go through the pool, so they see committed rows only. -/
def exec : (q : Query) → (committed view : RevenueDb) → ℕ → List Write × Reply q
  | .getShift id, db, _, _ => ([], db.shifts.find? (·.id = id))
  | .keyTaken key, _, db, _ => ([], decide (∃ p ∈ db.payments, p.idempotencyKey = some key))
  | .insertPayment input, _, db, n => loggedRow .insertPayment (insertPayment db n input)
  | .paymentByKey key, _, db, _ => ([], db.payments.find? (·.idempotencyKey = some key))
  | .entryExistsForSource sourceType sourceId, _, db, _ =>
    ([], decide (∃ e ∈ db.ledger.entries, e.sourceType = sourceType ∧ e.sourceId = some sourceId))
  | .getCustomer id, db, _, _ => ([], db.credit.present id)
  | .outbox event, _, _, _ => ([.insertOutbox event], ())
  | .getSale id, db, _, _ => ([], db.sales.find? (·.id = id))
  | .getVoid id, db, _, _ => ([], db.voids.find? (·.id = id))
  | .insertVoid sale requestedBy reason, _, db, n =>
    logged .putVoid (insertVoid db n sale requestedBy reason)
  | .findVoid id, _, db, _ => ([], db.voids.find? (·.id = id))
  | .decideVoid decision id decidedBy note, _, db, _ =>
    loggedUpdate .putVoid (decideVoid db decision id decidedBy note)
  | .dayFigures station day, _, db, _ => ([], dayFigures db station day)
  | .upsertDay station day figures, _, db, n =>
    loggedRow .putDay (upsertDay db n station day figures)
  | .findDraft id, _, db, _ =>
    ([], db.revenueDays.find? fun d ↦ d.id = id ∧ d.status ≠ .locked)
  | .lockDay id lockedBy now, _, db, _ => loggedUpdate .putDay (lockDay db id lockedBy now)
  | .getDay id, db, _, _ => ([], db.revenueDays.find? (·.id = id))
  | .findMpesa checkout, _, db, _ => ([], db.mpesa.find? (·.checkoutRequestId = checkout))
  | .settleMpesa input, _, db, _ => loggedUpdate .setMpesa (settleMpesa db input)
  | .getMpesa id, db, _, _ => ([], db.mpesa.find? (·.id = id))
  | .reconcileMpesa id revenueDay now, _, db, _ =>
    loggedUpdate .setMpesa (reconcileMpesa db id revenueDay now)
  | .credit q, committed, view, n =>
    ((Credit.exec env.credit q committed.credit view.credit n).1.map .credit,
      (Credit.exec env.credit q committed.credit view.credit n).2)
  | .ledger q, committed, view, n =>
    ((Accounting.exec env.chart q committed.ledger view.ledger n).1.map .ledger,
      (Accounting.exec env.chart q committed.ledger view.ledger n).2)

/-- What a lock is taken on: an entry of a unique index, or a row. -/
inductive LockKey where
  | paymentKey (key : String)
  | activeVoid (sale : Uuid)
  | void (id : Uuid)
  | revenueDay (station day : Uuid)
  | mpesa (id : Uuid)
  | credit (k : Credit.LockKey)
  | ledger (k : Accounting.LockKey)
  deriving DecidableEq

inductive RevenueResult where
  | done
  | payment (p : Payment) (replayed : Bool)
  | entry (e : Credit.AREntry)
  | void (v : SaleVoid)
  | day (d : RevenueDay)
  | mpesa (m : MpesaTransaction)

/-- The revenue tables as a database for transactions. -/
@[reducible] def schema : Schema where
  Db := RevenueDb
  Write := Write
  Query := Query
  Reply := Reply
  Key := LockKey
  Result := RevenueResult
  Error := HttpError
  apply := RevenueDb.apply
  exec := exec env

/-- The receivables. -/
def creditPart : Part (Credit.schema env.credit) (schema env) where
  part db := db.credit
  put db credit := { db with credit }
  write := .credit
  query := .credit
  reply _ r := r
  key := .credit
  result _ := .done
  error _ := .http 500 "internal error"
  put_part _ := rfl
  part_put _ _ := rfl
  put_put _ _ _ := rfl
  key_inj _ _ h := LockKey.credit.inj h
  apply_write _ _ := rfl
  exec_writes _ _ _ _ := rfl
  exec_reply _ _ _ _ := rfl

def ledgerPart : Part (Accounting.schema env.chart) (schema env) where
  part db := db.ledger
  put db ledger := { db with ledger }
  write := .ledger
  query := .ledger
  reply _ r := r
  key := .ledger
  result _ := .done
  error _ := .http 500 "internal error"
  put_part _ := rfl
  part_put _ _ := rfl
  put_put _ _ _ := rfl
  key_inj _ _ h := LockKey.ledger.inj h
  apply_write _ _ := rfl
  exec_writes _ _ _ _ := rfl
  exec_reply _ _ _ _ := rfl

instance : Ledgered env.chart (schema env) where
  http := .http
  ledger := ledgerPart env

end FuelGrid.Revenue
