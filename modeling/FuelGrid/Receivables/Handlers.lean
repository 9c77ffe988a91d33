import FuelGrid.Receivables.Schema

/-!
# Invoicing customers and taking their payments

The handlers of `customer_invoices_handlers.go` that write, each as its transaction. The body checks
before `Begin` come first in the program. An `UPDATE` by id is its row lock followed by the
statement.
-/

namespace FuelGrid.Receivables

open Sql

variable (env : Env)

/-- A transaction on the finance side of the receivables. -/
abbrev Txn := Prog (schema env)

/-! ## Invoices -/

/-- A date of a request: absent, not of the form `YYYY-MM-DD`, or a day. -/
inductive DateField where
  | absent | invalid
  | day (d : ℤ)

structure LineRequest where
  amount : Numeric
  revenueAccountKey : String

/-- The body of a request for an invoice. The nil id of a customer is `none`. -/
structure InvoiceRequest where
  actor : Uuid
  customerId : Option Uuid
  invoiceDate : DateField
  sourceType : String
  sourceId : Option Uuid
  stationId : Option Uuid
  lines : List LineRequest
  /-- The day of the request. -/
  today : ℤ

/-- The loop of `AddInvoiceLine`. -/
def addLines (invoice : Uuid) (next : Txn env) : List LineRequest → Txn env
  | [] => next
  | ln :: lns =>
    if !env.positive ln.amount then refuse 400 "line amounts must be positive decimals"
    else .query (.insertLine invoice ln.amount
        (if ln.revenueAccountKey = "" then "sales_revenue" else ln.revenueAccountKey)) fun
      | .error _ => internalError
      | .ok _ => addLines invoice next lns

def finishInvoice (invoice : Uuid) : Txn env :=
  .lock (.invoice invoice) <| .query (.finalizeAmount invoice) fun
    | .ok (some _) => commit (.invoice invoice)
    | _ => internalError

def answerInvoice (lines : List LineRequest) : Except PgError CustomerInvoice → Txn env
  | .error .foreignKeyViolation => refuse 400 "unknown customer or station"
  | .error _ => internalError
  | .ok i => addLines env i.id (finishInvoice env i.id) lines

/-- The handler past its body checks. -/
def createInvoice (req : InvoiceRequest) (customerId : Uuid) (invoiceDate : ℤ) : Txn env :=
  .query (.insertInvoice {
      customerId
      invoiceDate
      sourceType := req.sourceType
      sourceId := req.sourceId
      stationId := req.stationId
      createdBy := req.actor })
    (answerInvoice env req.lines)

def handleCreateCustomerInvoice (req : InvoiceRequest) : Txn env :=
  match req.customerId with
  | none => refuse 400 "customer_id and at least one line are required"
  | some customerId =>
    if req.lines = [] then refuse 400 "customer_id and at least one line are required"
    else match req.invoiceDate with
      | .invalid => refuse 400 "invoice_date must be YYYY-MM-DD"
      | .absent => createInvoice env req customerId req.today
      | .day d => createInvoice env req customerId d

/-- The entry of an issued invoice: receivables against the revenue accounts of its lines. -/
def issueEntry (actor : Uuid) (i : CustomerInvoice) (groups : List (String × Money)) :
    PostEntryInput where
  entryDate := i.invoiceDate
  sourceType := "customer_invoice"
  sourceId := some i.id
  stationId := i.stationId
  postedBy := actor
  lines :=
    { systemKey := "accounts_receivable", debit := some (.ofUnits 2 i.amount),
      credit := some (.finite 0), stationId := i.stationId } ::
    groups.map fun g ↦
      { systemKey := g.1, debit := some (.finite 0),
        credit := some (.ofUnits 2 g.2), stationId := i.stationId }

def handleIssueCustomerInvoice (actor id : Uuid) (now : ℤ) : Txn env :=
  .lock (.invoice id) <| .query (.issueInvoice id) fun
    | none => refuse 409 "only a draft invoice can be issued"
    | some i => .query (.revenueBreakdown id) fun groups ↦
        post (issueEntry actor i groups) now fun e ↦
          .query (.setInvoiceEntry id e.entry.id) fun _ ↦ commit (.invoice id)

/-! ## Payments -/

structure AllocationRequest where
  customerInvoiceId : Uuid
  amount : Numeric

/-- The body of a payment request. A date that does not parse is `none`. -/
structure PaymentRequest where
  actor : Uuid
  customerId : Option Uuid
  paymentDate : Option ℤ
  method : String
  sourceAccountKey : String
  allocations : List AllocationRequest
  now : ℤ

def PaymentRequest.srcKey (req : PaymentRequest) : String :=
  if req.sourceAccountKey = "" then "bank" else req.sourceAccountKey

/-- Tell an invoice of another customer from one that is not open for the amount. -/
def refuseAllocation (customer invoice : Uuid) : Txn env :=
  .query (.invoiceOwner invoice) fun
    | none => refuse 422 "allocation exceeds the invoice's outstanding balance"
    | some owner =>
      if owner ≠ customer then
        refuse 422 "allocation targets an invoice that does not belong to the paying customer"
      else refuse 422 "allocation exceeds the invoice's outstanding balance"

def addCustomerAllocation (payment : Uuid) (al : AllocationRequest) (next : Txn env) : Txn env :=
  .query (.insertAllocation payment al.customerInvoiceId al.amount) fun
    | .error .foreignKeyViolation => refuse 400 "unknown customer invoice"
    | .error _ => internalError
    | .ok _ => .query (.bumpPayment payment al.amount) fun
      | .error _ => internalError
      | .ok _ => next

/-- Go on after `ApplyInvoicePayment`. -/
def answerApply (p : CustomerPayment) (al : AllocationRequest) (next : Txn env) :
    Except PgError (Option CustomerInvoice) → Txn env
  | .error _ => internalError
  | .ok none => refuseAllocation env p.customerId al.customerInvoiceId
  | .ok (some _) => addCustomerAllocation env p.id al next

/-- The loop over the allocations. -/
def allocate (p : CustomerPayment) (next : Txn env) : List AllocationRequest → Txn env
  | [] => next
  | al :: als =>
    if !env.positive al.amount then refuse 400 "allocation amounts must be positive decimals"
    else .lock (.invoice al.customerInvoiceId) <|
      .query (.applyPayment p.customerId al.customerInvoiceId al.amount)
        (answerApply env p al (allocate p next als))

/-- The two lines of an allocation: bank or cash against receivables. -/
def allocationLines (srcKey : String) (al : AllocationRequest) : List PostLine := [
  { systemKey := srcKey, debit := some al.amount, credit := some (.finite 0) },
  { systemKey := "accounts_receivable", debit := some (.finite 0),
    credit := some al.amount }]

def paymentEntry (req : PaymentRequest) (payment : Uuid) (date : ℤ) : PostEntryInput where
  entryDate := date
  sourceType := "customer_payment"
  sourceId := some payment
  postedBy := req.actor
  lines := req.allocations.flatMap (allocationLines req.srcKey)

def finishPayment (req : PaymentRequest) (payment : Uuid) (date : ℤ) : Txn env :=
  post (paymentEntry req payment date) req.now fun e ↦
    .query (.setPaymentEntry payment e.entry.id) fun _ ↦ commit (.payment payment e.entry.id)

def answerPayment (req : PaymentRequest) (date : ℤ) : Except PgError CustomerPayment → Txn env
  | .error .foreignKeyViolation => refuse 400 "unknown customer"
  | .error _ => internalError
  | .ok p => allocate env p (finishPayment env req p.id date) req.allocations

def handlePostCustomerPayment (req : PaymentRequest) : Txn env :=
  match req.customerId with
  | none => refuse 400 "customer_id, method, and at least one allocation are required"
  | some customerId =>
    if req.method = "" ∨ req.allocations = [] then
      refuse 400 "customer_id, method, and at least one allocation are required"
    else match req.paymentDate with
      | none => refuse 400 "payment_date must be YYYY-MM-DD"
      | some date => .query (.insertPayment {
            customerId
            paymentDate := date
            method := req.method
            sourceAccountKey := req.srcKey
            createdBy := req.actor })
          (answerPayment env req date)

/-- The loop of `ReverseCustomerPayment` over the allocations. -/
def restore (next : Txn env) : List PaymentAllocation → Txn env
  | [] => next
  | a :: as => .lock (.invoice a.customerInvoiceId) <|
      .query (.restoreInvoice a.customerInvoiceId a.amount) fun
        | .error _ => internalError
        | .ok _ => restore next as

def answerReversal (payment : Uuid) :
    Except AccountingError AccountingResult → Txn env
  | .error .errAlreadyReversed =>
    refuse 409 "the payment's journal entry is already reversed"
  | r => answerEntry (fun e ↦ commit (.reversed payment (some e.entry.id))) r

def reverseJournal (actor : Uuid) (p : CustomerPayment) (reason : Option String) (now : ℤ) :
    Txn env :=
  match p.journalEntryId with
  | none => commit (.reversed p.id none)
  | some entry => (Accounting.reverseCall env.chart entry actor reason now).call (ledgerPart env)
      (answerReversal env p.id)

/-- `handleReverseCustomerPayment`, with `ReverseCustomerPayment`. -/
def handleReverseCustomerPayment (actor id : Uuid) (reason : Option String) (now : ℤ) : Txn env :=
  .lock (.payment id) <| .query (.getPayment id) fun
    | none => refuse 404 "customer payment not found"
    | some p =>
      if p.status ≠ .posted then refuse 409 "only a posted payment can be reversed"
      else .query (.listAllocations id) fun allocs ↦
        restore env (.query (.voidPayment id) fun _ ↦ reverseJournal env actor p reason now) allocs

inductive ReceivablesOp where
  | createInvoice (req : InvoiceRequest)
  | issueInvoice (actor id : Uuid) (now : ℤ)
  | postPayment (req : PaymentRequest)
  | reversePayment (actor id : Uuid) (reason : Option String) (now : ℤ)

def ReceivablesOp.prog : ReceivablesOp → Txn env
  | .createInvoice req => handleCreateCustomerInvoice env req
  | .issueInvoice actor id now => handleIssueCustomerInvoice env actor id now
  | .postPayment req => handlePostCustomerPayment env req
  | .reversePayment actor id reason now => handleReverseCustomerPayment env actor id reason now

end FuelGrid.Receivables
