import FuelGrid.Procurement.Schema

/-!
# Recording, matching and approving invoices

The handlers of `procurement_handlers.go` that write supplier invoices, each as its transaction. The
body checks and the reads before `Begin` come first in the program; they take no lock and write
nothing.
-/

namespace FuelGrid.Procurement

open Sql

variable (env : Env)

/-- A transaction on the supplier invoices. -/
abbrev Txn := Prog (schema env)

def authorizeStation (actor : Uuid) (perm : Permission) (station : Uuid) (next : Txn env) :
    Txn env :=
  if env.can actor perm station then next else refuse 403 "forbidden"

/-! ## Matching -/

def refreshInvoiceMatchStatus (invoice : Uuid) (next : Txn env) : Txn env :=
  .query (.openCount invoice) fun count ↦
    .query (.findUnapproved invoice) fun
      | none => next
      | some _ => .lock (.invoice invoice) <|
          .query (.setStatus invoice (matchStatus count)) fun _ ↦ next

/-- Insert the discrepancies that a `SELECT` has found. -/
def insertDiscrepancies (next : Txn env) : List Mismatch → Txn env
  | [] => next
  | m :: ms => .query (.insertDiscrepancy m) fun _ ↦ insertDiscrepancies next ms

def raiseInvoiceDiscrepancies (invoice : Uuid) (next : Txn env) : Txn env :=
  .query (.mismatches invoice .quantity) fun quantity ↦
    insertDiscrepancies env
      (.query (.mismatches invoice .price) fun price ↦ insertDiscrepancies env next price) quantity

/-! ## Recording -/

/-- The answer to a failed statement of `RecordSupplierInvoice`. -/
def refuseRecord : PgError → Txn env
  | .uniqueViolation => refuse 409 "supplier invoice number already exists"
  | .foreignKeyViolation => refuse 404 "purchase order line or delivery not found"
  | _ => internalError

/-- The loop over the lines. -/
def insertLines (invoice order : Uuid) (next : Txn env) : List SupplierInvoiceLineInput → Txn env
  | [] => next
  | ln :: lns => .query (.insertLine invoice order ln) fun
    | .error e => refuseRecord env e
    | .ok none => refuse 404 "purchase order line or delivery not found"
    | .ok (some _) => insertLines invoice order next lns

/-- What follows the lines: the total, the match and the answer. -/
def finishRecord (invoice : Uuid) : Txn env :=
  .query (.setTotal invoice) fun
    | .error e => refuseRecord env e
    | .ok _ => raiseInvoiceDiscrepancies env invoice <|
        refreshInvoiceMatchStatus env invoice <|
          .query (.invoice invoice) fun inv ↦ .commit (.invoice inv)

def recordSupplierInvoice (input : SupplierInvoiceInput) : Txn env :=
  .query (.order input.purchaseOrderId) fun
    | none => refuse 404 "purchase order line or delivery not found"
    | some order =>
      if order.status = .draft ∨ order.status = .cancelled then
        refuse 409 "invoice can only be recorded against a submitted or later purchase order"
      else .lock (.invoiceNumber order.supplierId (env.lower input.invoiceNumber)) <|
        .query (.insertInvoice order input) fun
          | .error e => refuseRecord env e
          | .ok inv =>
            insertLines env inv.id input.purchaseOrderId (finishRecord env inv.id) input.lines

/-- The number of a text of the form `^\d+(\.\d{1,4})?$`. -/
def decimalPattern (s : List Char) : Option ℚ :=
  let whole := s.takeWhile Char.isDigit
  let value (digits : List Char) : ℕ := digits.foldl (fun v c ↦ v * 10 + (c.toNat - 48)) 0
  if whole = [] then none
  else match s.dropWhile Char.isDigit with
    | [] => some (value whole)
    | '.' :: frac =>
      if frac.all Char.isDigit ∧ 1 ≤ frac.length ∧ frac.length ≤ 4 then
        some (value (whole ++ frac) / 10 ^ frac.length)
      else none
    | _ => none

/-- `validDecimal`, with the number. -/
def validDecimal (v : String) : Option ℚ := decimalPattern (env.trimSpace v).toList

/-- `validOptionalDecimal`, with the number. -/
def validOptionalDecimal : Option String → Option (Option ℚ)
  | none => some none
  | some v => (validDecimal env v).map some

/-- `recordInvoiceLineRequest`. The nil id is `none`. -/
structure RecordInvoiceLineRequest where
  poLineId : Option Uuid
  deliveryId : Option Uuid
  invoicedLitres : ℚ
  unitPrice : String
  amount : Option String

/-- `recordInvoiceRequest`, with the actor and the instant of the transaction. -/
structure RecordInvoiceRequest where
  actor : Uuid
  purchaseOrderId : Option Uuid
  invoiceNumber : String
  receivedAt : Option String
  dueDate : Option String
  notes : Option String
  lines : List RecordInvoiceLineRequest
  now : ℤ

def RecordInvoiceLineRequest.input (ln : RecordInvoiceLineRequest) :
    Option SupplierInvoiceLineInput := do
  let poLineId ← ln.poLineId
  if ln.invoicedLitres ≤ 0 then none
  let unitPrice ← validDecimal env ln.unitPrice
  let amount ← validOptionalDecimal env ln.amount
  return {
    poLineId, deliveryId := ln.deliveryId, invoicedLitres := ln.invoicedLitres, unitPrice, amount }

/-- An optional text that is parsed unless it is empty; the outer `none` is a parse error. -/
def parseOptional (parse : String → Option ℤ) : Option String → Option (Option ℤ)
  | none => some none
  | some s => if s = "" then some none else (parse s).map some

def handleRecordSupplierInvoice (req : RecordInvoiceRequest) : Txn env :=
  match req.purchaseOrderId with
  | none => refuse 400 "purchase_order_id, invoice_number, and lines are required"
  | some purchaseOrderId =>
    if env.trimSpace req.invoiceNumber = "" ∨ req.lines = [] then
      refuse 400 "purchase_order_id, invoice_number, and lines are required"
    else match parseOptional env.parseTime req.receivedAt with
      | none => refuse 400 "received_at must be RFC3339"
      | some receivedAt => match parseOptional env.parseDay req.dueDate with
        | none => refuse 400 "invalid due_date (want YYYY-MM-DD)"
        | some dueDate => .query (.getPurchaseOrder purchaseOrderId) fun
          | none => refuse 404 "purchase order not found"
          | some po => authorizeStation env req.actor .invoiceManage po.stationId <|
              match req.lines.mapM (RecordInvoiceLineRequest.input env) with
              | none => refuse 400 <| "invoice lines require po_line_id, positive invoiced_litres, "
                  ++ "and decimal unit_price/amount"
              | some lines => recordSupplierInvoice env {
                  purchaseOrderId
                  invoiceNumber := env.trimSpace req.invoiceNumber
                  receivedAt, dueDate
                  notes := req.notes
                  recordedBy := req.actor
                  lines
                  now := req.now }

/-! ## Approving -/

/-- The answer when the update of `ApproveSupplierInvoice` finds no row. -/
def refuseApproval (id : Uuid) : Txn env :=
  .query (.getSupplierInvoice id) fun
    | none => internalError
    | some before =>
      if before.status ≠ .matched then refuse 409 "invoice is not matched"
      else refuse 409 "resolve procurement discrepancies before approving"

/-- `ApproveSupplierInvoice` under the lock of the row. -/
def approveLocked (id actor : Uuid) : Txn env :=
  .query (.invoice id) fun
    | none => internalError
    | some inv =>
      if inv.status ≠ .matched then refuse 409 "invoice is not matched"
      else if inv.recordedBy = actor then
        refuse 403 "separation of duties: you cannot approve an invoice you recorded"
      else .query (.approveInvoice id actor) fun
        | none => refuseApproval env id
        | some inv' => .commit (.invoice (some inv'))

/-- `ApproveSupplierInvoice`. The discrepancies are counted before the row is locked. -/
def approveSupplierInvoice (id actor : Uuid) : Txn env :=
  .query (.openCount id) fun count ↦
    if 0 < count then refuse 409 "resolve procurement discrepancies before approving"
    else .query (.invoice id) fun
      | none => internalError
      | some _ => .lock (.invoice id) (approveLocked env id actor)

def handleApproveSupplierInvoice (actor id : Uuid) : Txn env :=
  .query (.getSupplierInvoice id) fun
    | none => refuse 404 "supplier invoice not found"
    | some inv => authorizeStation env actor .invoiceApprove inv.stationId <|
        approveSupplierInvoice env id actor

/-! ## Resolving -/

/-- The answer when the update of `ResolveDiscrepancy` finds no row. -/
def refuseResolution (id : Uuid) : Txn env :=
  .query (.getDiscrepancy id) fun
    | none => internalError
    | some _ => refuse 409 "discrepancy is already resolved"

/-- `ResolveDiscrepancy` -/
def resolveDiscrepancyTxn (id actor : Uuid) : Txn env :=
  .query (.findOpen id) fun
    | none => refuseResolution env id
    | some _ => .lock (.discrepancy id) <|
        .query (.resolveDiscrepancy id actor) fun
          | none => refuseResolution env id
          | some d => refreshInvoiceMatchStatus env d.supplierInvoiceId (.commit (.discrepancy d))

def handleResolveProcurementDiscrepancy (actor id : Uuid) (status : String) : Txn env :=
  if status ≠ "resolved" then refuse 400 "status must be resolved"
  else .query (.getDiscrepancy id) fun
    | none => refuse 404 "discrepancy not found"
    | some before => .query (.getSupplierInvoice before.supplierInvoiceId) fun
      | none => internalError
      | some inv => authorizeStation env actor .invoiceApprove inv.stationId <|
          resolveDiscrepancyTxn env id actor

inductive ProcurementOp where
  | record (req : RecordInvoiceRequest)
  | approve (actor id : Uuid)
  | resolve (actor id : Uuid) (status : String)

def ProcurementOp.prog : ProcurementOp → Txn env
  | .record req => handleRecordSupplierInvoice env req
  | .approve actor id => handleApproveSupplierInvoice env actor id
  | .resolve actor id status => handleResolveProcurementDiscrepancy env actor id status

/-- Everybody may do everything. -/
def Env.allowAll : Env where
  can _ _ _ := true
  trimSpace := id
  lower := id
  parseTime _ := none
  parseDay _ := none

end FuelGrid.Procurement
