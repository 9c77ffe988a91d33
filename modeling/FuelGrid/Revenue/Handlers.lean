import FuelGrid.Revenue.Schema

/-!
# Payments, voids and the revenue close

The handlers of `payments_handlers.go`, `customers_handlers.go`, `sale_voids_handlers.go`,
`revenue_close_handlers.go` and the M-Pesa ones of `server_routes_payments.go`, each as its
transaction. The body checks and the reads before `Begin` come first in the program; they take no
lock and write nothing.
-/

namespace FuelGrid.Revenue

open Sql

variable (env : Env)

/-- A transaction on the revenue tables. -/
abbrev Txn := Prog (schema env)

def authorizeStation (actor : Uuid) (perm : Permission) (station : Uuid) (next : Txn env) :
    Txn env :=
  if env.can actor perm station then next else refuse 403 "forbidden"

/-- `audit.WriteWithOutbox` -/
def writeOutbox (eventType entityType : String) (entityId : Uuid) (next : Txn env) : Txn env :=
  .query (.outbox ⟨eventType, entityType, entityId⟩) fun _ ↦ next

/-! ## Payments

A replayed payment is rolled back and answered with the row that was found. It has written nothing,
so its program commits. -/

/-- The body of a payment request, with the header `Idempotency-Key`. An unknown tender type is
`none`. -/
structure PaymentRequest where
  actor : Uuid
  shiftId : Uuid
  tenderType : Option TenderType
  amount : Numeric
  reference : Option String
  customerId : Option Uuid
  allowOverLimit : Bool
  notes : Option String
  headerKey : String
  bodyKey : Option String
  now : ℤ

/-- `resolveIdempotencyKey`: the header comes first, a blank key is none, and a key that is too long
is refused. -/
def resolveIdempotencyKey (headerKey : String) (bodyKey : Option String) :
    Except Unit (Option String) :=
  let raw := env.trimSpace (if headerKey = "" then bodyKey.getD "" else headerKey)
  if raw = "" then .ok none else if raw.utf8ByteSize > 255 then .error () else .ok (some raw)

def answerRecord (k : Option Payment → Txn env) : Except PgError (Option Payment) → Txn env
  | .error .foreignKeyViolation => refuse 400 "unknown customer for this tenant"
  | .error _ => internalError
  | .ok p => k p

def existingPayment (key : String) (k : Payment → Bool → Txn env) : Txn env :=
  .query (.paymentByKey key) fun
    | some p => k p true
    | none => internalError

/-- `Record`: `k` gets the payment and whether it is a replay. -/
def record (input : RecordInput) (k : Payment → Bool → Txn env) : Txn env :=
  match input.idempotencyKey with
  | none => .query (.insertPayment input) (answerRecord env fun
      | some p => k p false
      | none => internalError)
  | some key => .query (.keyTaken key) fun taken ↦
      if taken then
        -- the row is not inserted, but its values are still checked
        .query (.insertPayment input) (answerRecord env fun _ ↦ existingPayment env key k)
      else .lock (.paymentKey key) <| .query (.insertPayment input) (answerRecord env fun
        | some p => k p false
        | none => existingPayment env key k)

/-- The answer to a failed `PostCharge`. -/
def refuseCharge : Credit.CreditError → Txn env
  | .errCreditHold => refuse 422 "customer account is on credit hold; charge refused"
  | .errCreditLimit => refuse 422 "charge would exceed the customer's credit limit"
  | .errNotFound => refuse 400 "unknown customer for this tenant"
  | _ => internalError

/-- A stored amount as a decimal text. -/
def amountText (amount : Money) : Numeric := .ofUnits 2 amount

/-- The entry of `postCreditChargeJournal`. -/
def creditChargeEntry (p : Payment) (actor : Uuid) : PostEntryInput where
  entryDate := env.dateOf p.receivedAt
  sourceType := "ar_charge"
  sourceId := some p.id
  stationId := some p.stationId
  memo := some "credit fuel sale — accounts receivable"
  postedBy := actor
  allowClosed := true
  lines := [
    { systemKey := "accounts_receivable", debit := some (amountText p.amount),
      credit := some (.finite 0), stationId := some p.stationId },
    { systemKey := "sales_clearing", debit := some (.finite 0),
      credit := some (amountText p.amount), stationId := some p.stationId }]

/-- `postCreditChargeJournal`. When the ledger is not set up the posting is skipped. `PostEntry`
looks a line's account up after it has inserted the entry, so what it wrote by then stays. -/
def postCreditChargeJournal (p : Payment) (actor : Uuid) (now : ℤ) (next : Txn env) : Txn env :=
  .query (.entryExistsForSource "ar_charge" p.id) fun found ↦
    if found then next
    else (postCall env.chart (creditChargeEntry env p actor) now).call (ledgerPart env) fun
      | .ok _ => next
      | .error .errNoPeriod => next
      | .error .errSystemAccount => next
      | .error _ => internalError

/-- The receivables side of a credit tender. -/
def chargeCustomer (req : PaymentRequest) (p : Payment) (next : Txn env) : Txn env :=
  match req.tenderType, req.customerId with
  | some .credit, some customer =>
    (Credit.postCharge env.credit customer req.amount
        (req.allowOverLimit && env.holdsOverride req.actor)).call (creditPart env) fun
      | .error e => refuseCharge env e
      | .ok _ => postCreditChargeJournal env p req.actor req.now next
  | _, _ => next

/-- The outbox event and the commit, which runs the deferred trigger. -/
def commitPayment (p : Payment) : Txn env :=
  writeOutbox env "PaymentRecorded" "payment" p.id (commit (.payment p false))

/-- What `handleRecordPayment` does with the payment of `Record`. -/
def finishPayment (req : PaymentRequest) (p : Payment) (replayed : Bool) : Txn env :=
  if replayed then .commit (.payment p true) else chargeCustomer env req p (commitPayment env p)

/-- The input of `Record` for a request on a shift. -/
def PaymentRequest.toRecord (req : PaymentRequest) (shift : Shift) (tenderType : TenderType)
    (idempotencyKey : Option String) : RecordInput where
  stationId := shift.stationId
  shiftId := some req.shiftId
  customerId := req.customerId
  tenderType := tenderType
  amount := req.amount
  reference := req.reference
  receivedBy := req.actor
  notes := req.notes
  idempotencyKey := idempotencyKey
  now := req.now

def handleRecordPayment (req : PaymentRequest) : Txn env :=
  match req.tenderType with
  | none => refuse 400 "tender_type must be cash|mobile_money|card|credit|voucher"
  | some tenderType =>
    if !env.nonNegative req.amount then refuse 400 "amount must be a non-negative decimal"
    else if tenderType = .credit ∧ req.customerId = none then
      refuse 400 "credit tender requires a customer_id"
    else match resolveIdempotencyKey env req.headerKey req.bodyKey with
      | .error () => refuse 400 "idempotency key must be 1-255 characters"
      | .ok key => .query (.getShift req.shiftId) fun
        | none => refuse 404 "shift not found"
        | some shift => authorizeStation env req.actor .paymentRecord shift.stationId <|
            record env (req.toRecord shift tenderType key) (finishPayment env req)

structure CustomerPaymentRequest where
  customerId : Uuid
  amount : Numeric

/-- `PostPayment`, with the audit trail and the commit. Nothing is posted to the journal. -/
def postPayment (req : CustomerPaymentRequest) : Txn env :=
  .query (.credit (.insertPayment req.customerId req.amount)) fun
    | .error _ => internalError
    | .ok e => writeOutbox env "CustomerPaymentRecorded" "ar_entry" e.id (.commit (.entry e))

def handleRecordCustomerPayment (req : CustomerPaymentRequest) : Txn env :=
  if !env.positive req.amount then refuse 400 "amount must be a positive decimal"
  else .query (.getCustomer req.customerId) fun
    | none => refuse 404 "customer not found"
    | some _ => postPayment env req

/-! ## Voids -/

def saleStation (actor sale : Uuid) (perm : Permission) (next : Txn env) : Txn env :=
  .query (.getSale sale) fun
    | none => refuse 404 "sale not found"
    | some s => authorizeStation env actor perm s.stationId next

def voidStation (actor id : Uuid) (perm : Permission) (next : Txn env) : Txn env :=
  .query (.getVoid id) fun
    | none => refuse 404 "sale void not found"
    | some v => saleStation env actor v.saleId perm next

def answerRequest : Except PgError SaleVoid → Txn env
  | .error .uniqueViolation => refuse 409 "this sale already has an active void"
  | .error _ => internalError
  | .ok v => writeOutbox env "SaleVoidRequested" "sale_void" v.id (.commit (.void v))

def handleRequestSaleVoid (actor sale : Uuid) (reason : String) : Txn env :=
  if env.trimSpace reason = "" then refuse 400 "reason is required"
  else saleStation env actor sale .saleVoidRequest <|
    .lock (.activeVoid sale) <|
      .query (.insertVoid sale actor (env.trimSpace reason)) (answerRequest env)

def badVoidState : Txn env :=
  refuse 409 "sale void is not in the required state for this action"

/-- The audit trail of a decision and its commit. -/
def answerDecision (decision : Decision) : Option SaleVoid → Txn env
  | none => badVoidState env
  | some v =>
    match decision with
    | .approve =>
      writeOutbox env "SaleReversalCreated" "sale" v.saleId <|
        writeOutbox env "PaymentReversalCreated" "sale" v.saleId <|
          writeOutbox env "SaleVoidApproved" "sale_void" v.id (.commit (.void v))
    | .reject => writeOutbox env "SaleVoidRejected" "sale_void" v.id (.commit (.void v))

/-- `ApproveVoid` or `RejectVoid` under the lock of the row. -/
def decideLocked (decision : Decision) (actor id : Uuid) (note : Option String) : Txn env :=
  .query (.findVoid id) fun
    | none => refuse 404 "sale void not found"
    | some v =>
      if v.status ≠ .requested then badVoidState env
      else if v.requestedBy = actor then
        refuse 403 "separation of duties: you cannot decide a sale void you requested"
      else .query (.decideVoid decision id actor note) (answerDecision env decision)

def decideSaleVoid (decision : Decision) (actor id : Uuid) (note : Option String) : Txn env :=
  voidStation env actor id .saleVoidApprove <|
    .query (.findVoid id) fun
      | none => refuse 404 "sale void not found"
      | some _ => .lock (.void id) (decideLocked env decision actor id note)

/-! ## The revenue day -/

/-- The answer to the upsert of `ComputeDay`. -/
def answerCompute : Except PgError (Option RevenueDay) → Txn env
  | .error .foreignKeyViolation => refuse 400 "operating day not found for this station"
  | .error _ => internalError
  | .ok none => refuse 409 "revenue day is locked"
  | .ok (some d) => writeOutbox env "RevenueDayComputed" "revenue_day" d.id (.commit (.day d))

/-- `handleComputeRevenueDay`. The sums are those of the statement's start; a row of another
transaction is waited for after that. -/
def handleComputeRevenueDay (station day : Uuid) : Txn env :=
  .query (.dayFigures station day) fun
    -- no operating day, so nothing is inserted, and no row counts as a locked one
    | none => refuse 409 "revenue day is locked"
    | some figures => .lock (.revenueDay station day) <|
        .query (.upsertDay station day figures) (answerCompute env)

/-- Tell a missing revenue day from a locked one. -/
def refuseLock (id : Uuid) : Txn env :=
  .query (.getDay id) fun
    | none => refuse 404 "revenue day not found"
    | some _ => refuse 409 "revenue day already locked"

def handleLockRevenueDay (actor id : Uuid) (now : ℤ) : Txn env :=
  .query (.findDraft id) fun
    | none => refuseLock env id
    | some d => .lock (.revenueDay d.stationId d.operatingDayId) <|
        .query (.lockDay id actor now) fun
          | none => refuseLock env id
          | some d' => writeOutbox env "RevenueDayLocked" "revenue_day" d'.id (.commit (.day d'))

/-- `handleMpesaCallback`: whatever happens, the callback is acknowledged. -/
def handleMpesaCallback (input : SettleInput) : Txn env :=
  .query (.findMpesa input.checkoutRequestId) fun
    | none => .commit .done
    | some m => .lock (.mpesa m.id) <| .query (.settleMpesa input) fun _ ↦ .commit .done

def handleReconcileMpesa (actor id revenueDay : Uuid) (now : ℤ) : Txn env :=
  .query (.getMpesa id) fun
    | none => refuse 404 "transaction not found"
    | some m => authorizeStation env actor .mpesaManage m.stationId <|
        .query (.getDay revenueDay) fun
          | none => refuse 400 "unknown revenue day for this tenant"
          | some d =>
            if d.stationId ≠ m.stationId then
              refuse 422 "revenue day belongs to a different station than the transaction"
            else .lock (.mpesa id) <| .query (.reconcileMpesa id revenueDay now) fun
              | none => refuse 422 "only a paid transaction can be reconciled"
              | some m' => writeOutbox env "MpesaTransactionReconciled" "mpesa_transaction" m'.id
                  (.commit (.mpesa m'))

end FuelGrid.Revenue
