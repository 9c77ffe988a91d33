import FuelGrid.Payables.Schema

/-!
# Importing payables and paying suppliers

The handlers of `payables_handlers.go` that write, each as its transaction. The body checks before
`Begin` come first in the program. An `UPDATE` by id is its row lock followed by the statement.
-/

namespace FuelGrid.Payables

open Sql

variable (env : Env)

/-- A transaction on the payables. -/
abbrev Txn := Prog (schema env)

/-! ## Imports -/

def insertPayables (next : List Payable → Txn env) : List SupplierInvoice → List Payable → Txn env
  | [], created => next created
  | si :: sis, created => .query (.insertPayable si) fun
    | .error _ => internalError
    | .ok p => insertPayables next sis (created ++ [p])

def importEntry (actor : Uuid) (today : ℤ) (p : Payable) : PostEntryInput where
  entryDate := p.invoiceDate.getD today
  sourceType := "payable"
  sourceId := some p.id
  stationId := p.stationId
  postedBy := actor
  lines := [
    { systemKey := "inventory", debit := some (.ofUnits 2 p.amount),
      credit := some (.finite 0) },
    { systemKey := "accounts_payable", debit := some (.finite 0),
      credit := some (.ofUnits 2 p.amount) }]

def postPayables (actor : Uuid) (today now : ℤ) (next : Txn env) : List Payable → Txn env
  | [] => next
  | p :: ps =>
    post (importEntry actor today p) now fun e ↦ .query (.setEntry p.id e.entry.id) fun _ ↦
      postPayables actor today now next ps

def handleImportPayables (actor : Uuid) (invoices : List SupplierInvoice) (today now : ℤ) :
    Txn env :=
  .query (.approvedWithoutPayable invoices) fun sis ↦
    insertPayables env (fun created ↦
      postPayables env actor today now (commit (.imported created.length)) created) sis []

/-! ## Payments -/

structure AllocationRequest where
  payableId : Uuid
  amount : Numeric

/-- `supplierPaymentRequest`. The nil id of a supplier and a date that does not parse are `none`. -/
structure PaymentRequest where
  actor : Uuid
  supplierId : Option Uuid
  paymentDate : Option ℤ
  method : String
  sourceAccountKey : String
  allocations : List AllocationRequest
  now : ℤ

def PaymentRequest.srcKey (req : PaymentRequest) : String :=
  if req.sourceAccountKey = "" then "bank" else req.sourceAccountKey

def addAllocation (payment : Uuid) (al : AllocationRequest) (next : Txn env) : Txn env :=
  .query (.insertAllocation payment al.payableId al.amount) fun
    | .error .foreignKeyViolation => refuse 400 "unknown payable"
    | .error _ => internalError
    | .ok _ => .query (.bumpPayment payment al.amount) fun
      | .error _ => internalError
      | .ok _ => next

/-- Go on after `ApplyPayment`. -/
def answerApply (payment : Uuid) (al : AllocationRequest) (next : Txn env) :
    Except PgError (Option Payable) → Txn env
  | .error _ => internalError
  | .ok none => refuse 422 "allocation exceeds the payable's outstanding balance"
  | .ok (some _) => addAllocation env payment al next

/-- The loop over the allocations. -/
def allocate (payment : Uuid) (next : Txn env) : List AllocationRequest → Txn env
  | [] => next
  | al :: als =>
    if !env.positive al.amount then refuse 400 "allocation amounts must be positive decimals"
    else .lock (.payable al.payableId) <|
      .query (.applyPayment al.payableId al.amount)
        (answerApply env payment al (allocate payment next als))

/-- The two lines of an allocation: accounts payable against bank or cash. -/
def allocationLines (srcKey : String) (al : AllocationRequest) : List PostLine := [
  { systemKey := "accounts_payable", debit := some al.amount,
    credit := some (.finite 0) },
  { systemKey := srcKey, debit := some (.finite 0), credit := some al.amount }]

def paymentEntry (req : PaymentRequest) (payment : Uuid) (date : ℤ) : PostEntryInput where
  entryDate := date
  sourceType := "supplier_payment"
  sourceId := some payment
  postedBy := req.actor
  lines := req.allocations.flatMap (allocationLines req.srcKey)

def finishPayment (req : PaymentRequest) (payment : Uuid) (date : ℤ) : Txn env :=
  .query (.setPaymentAmount payment) fun _ ↦
    post (paymentEntry req payment date) req.now fun e ↦
      .query (.setPaymentEntry payment e.entry.id) fun _ ↦ commit (.payment payment e.entry.id)

def handleRecordSupplierPayment (req : PaymentRequest) : Txn env :=
  match req.supplierId with
  | none => refuse 400 "supplier_id, method, and at least one allocation are required"
  | some supplierId =>
    if req.method = "" ∨ req.allocations = [] then
      refuse 400 "supplier_id, method, and at least one allocation are required"
    else match req.paymentDate with
      | none => refuse 400 "payment_date must be YYYY-MM-DD"
      | some date => .query (.insertPayment {
            supplierId
            paymentDate := date
            method := req.method
            sourceAccountKey := req.srcKey
            createdBy := req.actor }) fun p ↦
          allocate env p.id (finishPayment env req p.id date) req.allocations

inductive PayablesOp where
  | importPayables (actor : Uuid) (invoices : List SupplierInvoice) (today now : ℤ)
  | recordPayment (req : PaymentRequest)

def PayablesOp.prog : PayablesOp → Txn env
  | .importPayables actor invoices today now => handleImportPayables env actor invoices today now
  | .recordPayment req => handleRecordSupplierPayment env req

end FuelGrid.Payables
