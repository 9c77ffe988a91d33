import FuelGrid.Sql.Numeric
import FuelGrid.Sql.Refusals

/-!
# Supplier invoices

The tables and the SQL statements of `internal/procurement` that record a supplier's invoice, match
it against the purchase order and the deliveries, and take it to its approval. One tenant's rows are
modelled.
-/

namespace FuelGrid.Procurement

open Sql

inductive Permission where
  | invoiceManage | invoiceApprove

structure Env where
  /-- The policy engine: whether a user has a permission at a station. -/
  can : Uuid → Permission → Uuid → Bool
  /-- `strings.TrimSpace` -/
  trimSpace : String → String
  /-- `lower` -/
  lower : String → String
  /-- An instant in RFC 3339. -/
  parseTime : String → Option ℤ
  /-- A date in the layout of the API. -/
  parseDay : String → Option ℤ

/-! ## Tables

Purchase orders, their lines and the deliveries are written by other modules and do not change here.
Litres are `numeric(14,3)` in thousandths and money is `numeric(14,2)` in cents; the handlers let no
`NaN` through to these columns. -/

inductive POStatus where
  | draft | submitted | confirmed | partiallyReceived | received | closed | cancelled
  deriving DecidableEq

structure PurchaseOrder where
  id : Uuid
  supplierId : Uuid
  stationId : Uuid
  status : POStatus

structure PurchaseOrderLine where
  id : Uuid
  purchaseOrderId : Uuid
  productId : Uuid
  orderedLitres : ℤ
  unitPrice : ℤ
  /-- `chk_po_lines_ordered_litres` -/
  ordered_pos : 0 < orderedLitres
  /-- `chk_po_lines_unit_price` -/
  price_nonneg : 0 ≤ unitPrice

/-- A delivery. The purchase order is known for goods receipts only. -/
structure Delivery where
  id : Uuid
  purchaseOrderId : Option Uuid
  volumeLitres : ℤ
  /-- `chk_deliveries_volume` -/
  volume_pos : 0 < volumeLitres

inductive InvoiceStatus where
  | recorded | matched | discrepancy | approved
  deriving DecidableEq

structure SupplierInvoice where
  id : Uuid
  supplierId : Uuid
  purchaseOrderId : Uuid
  stationId : Uuid
  invoiceNumber : String
  status : InvoiceStatus
  receivedAt : ℤ
  dueDate : Option ℤ
  totalAmount : ℤ
  recordedBy : Uuid
  approvedBy : Option Uuid
  notes : Option String
  /-- `chk_supplier_invoices_total` -/
  total_nonneg : 0 ≤ totalAmount

structure SupplierInvoiceLine where
  id : Uuid
  supplierInvoiceId : Uuid
  purchaseOrderId : Uuid
  poLineId : Uuid
  deliveryId : Option Uuid
  productId : Uuid
  invoicedLitres : ℤ
  unitPrice : ℤ
  amount : ℤ
  /-- `chk_supplier_invoice_lines_qty`, `_price` and `_amount` -/
  checks : 0 < invoicedLitres ∧ 0 ≤ unitPrice ∧ 0 ≤ amount

inductive DiscrepancyType where
  | quantity | price

inductive DiscrepancyStatus where
  | opened | resolved
  deriving DecidableEq

/-- What a mismatch of an invoice line says. The severity is always `blocking`. -/
structure Mismatch where
  supplierInvoiceId : Uuid
  purchaseOrderId : Uuid
  deliveryId : Option Uuid
  poLineId : Uuid
  type : DiscrepancyType
  detail : String
  varianceLitres : Option ℤ
  varianceAmount : Option ℤ

structure ProcurementDiscrepancy extends Mismatch where
  id : Uuid
  status : DiscrepancyStatus
  resolvedBy : Option Uuid

structure ProcurementDb where
  orders : List PurchaseOrder
  orderLines : List PurchaseOrderLine
  deliveries : List Delivery
  invoices : List SupplierInvoice
  lines : List SupplierInvoiceLine
  discrepancies : List ProcurementDiscrepancy

/-! ## Recording -/

/-- `SupplierInvoiceLineInput`, with the numbers of its texts. -/
structure SupplierInvoiceLineInput where
  poLineId : Uuid
  deliveryId : Option Uuid
  invoicedLitres : ℚ
  unitPrice : ℚ
  amount : Option ℚ

/-- `SupplierInvoiceInput`, with the instant of the transaction. -/
structure SupplierInvoiceInput where
  purchaseOrderId : Uuid
  invoiceNumber : String
  receivedAt : Option ℤ
  dueDate : Option ℤ
  notes : Option String
  recordedBy : Uuid
  lines : List SupplierInvoiceLineInput
  now : ℤ

/-- `ROUND(x, 2)` -/
def round2 (x : ℚ) : ℚ := roundHalfAway (x * 10 ^ 2) / 10 ^ 2

/-- `COALESCE($8::numeric, ROUND($6::numeric * $7::numeric, 2))` -/
def SupplierInvoiceLineInput.lineAmount (ln : SupplierInvoiceLineInput) : ℚ :=
  ln.amount.getD (round2 (ln.invoicedLitres * ln.unitPrice))

namespace ProcurementDb

variable (db : ProcurementDb)

/-- The line of a purchase order, by `uq_po_lines_tenant_order_id`. -/
def orderLine (order line : Uuid) : Option PurchaseOrderLine :=
  db.orderLines.find? fun pol ↦ pol.purchaseOrderId = order ∧ pol.id = line

def delivery (id : Uuid) : Option Delivery := db.deliveries.find? (·.id = id)

def invoice (id : Uuid) : Option SupplierInvoice := db.invoices.find? (·.id = id)

def linesOf (invoice : Uuid) : List SupplierInvoiceLine :=
  db.lines.filter (·.supplierInvoiceId = invoice)

def openOf (invoice : Uuid) : List ProcurementDiscrepancy :=
  db.discrepancies.filter fun d ↦ d.supplierInvoiceId = invoice ∧ d.status = .opened

end ProcurementDb

variable (env : Env)

/-- The insert of an invoice, with the unique index on its number. -/
def insertInvoice (db : ProcurementDb) (n : ℕ) (order : PurchaseOrder)
    (input : SupplierInvoiceInput) :
    Except PgError SupplierInvoice :=
  if ∃ inv ∈ db.invoices, inv.supplierId = order.supplierId ∧
      env.lower inv.invoiceNumber = env.lower input.invoiceNumber then
    .error .uniqueViolation
  else .ok {
    id := n
    supplierId := order.supplierId
    purchaseOrderId := input.purchaseOrderId
    stationId := order.stationId
    invoiceNumber := input.invoiceNumber
    status := .recorded
    receivedAt := input.receivedAt.getD input.now
    dueDate := input.dueDate
    totalAmount := 0
    recordedBy := input.recordedBy
    approvedBy := none
    notes := input.notes
    total_nonneg := le_rfl }

/-- The insert of a line; no row when the purchase order has no such line. The delivery need not be
one of the purchase order. -/
def insertLine (db : ProcurementDb) (n : ℕ) (invoice order : Uuid) (ln : SupplierInvoiceLineInput) :
    Except PgError (Option SupplierInvoiceLine) :=
  match db.orderLine order ln.poLineId with
  | none => .ok none
  | some pol =>
    match store 14 3 ln.invoicedLitres, store 14 2 ln.unitPrice, store 14 2 ln.lineAmount with
    | some invoicedLitres, some unitPrice, some amount =>
      if checks : 0 < invoicedLitres ∧ 0 ≤ unitPrice ∧ 0 ≤ amount then
        -- supplier_invoice_lines_delivery_fk
        if ln.deliveryId.all fun d ↦ (db.delivery d).isSome then
          .ok (some {
            id := n
            supplierInvoiceId := invoice
            purchaseOrderId := order
            poLineId := pol.id
            deliveryId := ln.deliveryId
            productId := pol.productId
            invoicedLitres, unitPrice, amount, checks })
        else .error .foreignKeyViolation
      else .error .checkViolation
    | _, _, _ => .error .numericOverflow

def setTotal (db : ProcurementDb) (id : Uuid) : Except PgError (Option SupplierInvoice) :=
  match db.invoice id with
  | none => .ok none
  | some inv =>
    let total := ((db.linesOf id).map (·.amount)).sum
    if total < 10 ^ 14 then
      if h : 0 ≤ total then .ok (some { inv with totalAmount := total, total_nonneg := h })
      else .error .checkViolation
    else .error .numericOverflow

/-! ## Matching -/

/-- A column of litres as a number. -/
def litres (units : ℤ) : ℚ := units / 10 ^ 3

/-- A column of money as a number. -/
def money (units : ℤ) : ℚ := units / 10 ^ 2

/-- `greatest(reference_litres * 0.005, 1)` -/
def quantityTolerance (reference : ℚ) : ℚ := max (reference * (5 / 1000)) 1

/-- `greatest(pol.unit_price * 0.005, 0.01)` -/
def priceTolerance (price : ℚ) : ℚ := max (price * (5 / 1000)) (1 / 100)

/-- `reference_litres`: what a line is compared with, looked at alone. -/
def referenceLitres (db : ProcurementDb) (il : SupplierInvoiceLine) (pol : PurchaseOrderLine) : ℤ :=
  match il.deliveryId with
  | some d => ((db.delivery d).map (·.volumeLitres)).getD 0
  | none => pol.orderedLitres

def quantityMismatch (db : ProcurementDb) (il : SupplierInvoiceLine) : Option Mismatch := do
  let pol ← db.orderLine il.purchaseOrderId il.poLineId
  let reference := referenceLitres db il pol
  if quantityTolerance (litres reference) < |litres il.invoicedLitres - litres reference| then
    some {
      supplierInvoiceId := il.supplierInvoiceId
      purchaseOrderId := il.purchaseOrderId
      deliveryId := il.deliveryId
      poLineId := il.poLineId
      type := .quantity
      detail := if il.deliveryId.isSome then "invoice quantity differs from received litres"
        else "invoice quantity differs from ordered litres"
      varianceLitres := some (il.invoicedLitres - reference)
      varianceAmount := none }
  else none

/-- The mismatch of a line in price. Its amount is not looked at. -/
def priceMismatch (db : ProcurementDb) (il : SupplierInvoiceLine) : Option Mismatch := do
  let pol ← db.orderLine il.purchaseOrderId il.poLineId
  if priceTolerance (money pol.unitPrice) < |money il.unitPrice - money pol.unitPrice| then
    some {
      supplierInvoiceId := il.supplierInvoiceId
      purchaseOrderId := il.purchaseOrderId
      deliveryId := il.deliveryId
      poLineId := il.poLineId
      type := .price
      detail := "invoice unit price differs from purchase order price"
      varianceLitres := none
      varianceAmount := some (il.unitPrice - pol.unitPrice) }
  else none

def Mismatch.raised (m : Mismatch) (n : ℕ) : ProcurementDiscrepancy :=
  { m with id := n, status := .opened, resolvedBy := none }

/-- The status that a count of open discrepancies asks for. -/
def matchStatus (count : ℕ) : InvoiceStatus := if 0 < count then .discrepancy else .matched

/-- The update of `refreshInvoiceMatchStatus`. -/
def setStatus (db : ProcurementDb) (id : Uuid) (status : InvoiceStatus) : Option SupplierInvoice :=
  (db.invoices.find? fun inv ↦ inv.id = id ∧ inv.status ≠ .approved).map ({ · with status })

/-- The update of `ApproveSupplierInvoice`. -/
def approveInvoice (db : ProcurementDb) (id actor : Uuid) : Option SupplierInvoice :=
  (db.invoices.find? fun inv ↦ inv.id = id ∧ inv.status = .matched).map
    ({ · with status := .approved, approvedBy := some actor })

/-- The update of `ResolveDiscrepancy`. -/
def resolveDiscrepancy (db : ProcurementDb) (id actor : Uuid) : Option ProcurementDiscrepancy :=
  (db.discrepancies.find? fun d ↦ d.id = id ∧ d.status = .opened).map
    ({ · with status := .resolved, resolvedBy := some actor })

/-! ## Statements -/

/-- The statements. An insert of discrepancies is its `SELECT` and then one insert for each row it
finds. An `UPDATE` or a `FOR UPDATE` that can wait is two statements with a lock in between: the row
is found on the snapshot of the statement's start, and looked at again under the lock. -/
inductive Query where
  | getPurchaseOrder (id : Uuid)
  | order (id : Uuid)
  | insertInvoice (order : PurchaseOrder) (input : SupplierInvoiceInput)
  | insertLine (invoice order : Uuid) (ln : SupplierInvoiceLineInput)
  | setTotal (id : Uuid)
  | mismatches (invoice : Uuid) (type : DiscrepancyType)
  | insertDiscrepancy (m : Mismatch)
  | openCount (invoice : Uuid)
  | findUnapproved (id : Uuid)
  | setStatus (id : Uuid) (status : InvoiceStatus)
  | getSupplierInvoice (id : Uuid)
  | invoice (id : Uuid)
  | approveInvoice (id actor : Uuid)
  | getDiscrepancy (id : Uuid)
  | findOpen (id : Uuid)
  | resolveDiscrepancy (id actor : Uuid)

abbrev Reply : Query → Type
  | .getPurchaseOrder _ => Option PurchaseOrder
  | .order _ => Option PurchaseOrder
  | .insertInvoice _ _ => Except PgError SupplierInvoice
  | .insertLine _ _ _ => Except PgError (Option SupplierInvoiceLine)
  | .setTotal _ => Except PgError (Option SupplierInvoice)
  | .mismatches _ _ => List Mismatch
  | .insertDiscrepancy _ => ProcurementDiscrepancy
  | .openCount _ => ℕ
  | .findUnapproved _ => Option SupplierInvoice
  | .setStatus _ _ => Option SupplierInvoice
  | .getSupplierInvoice _ => Option SupplierInvoice
  | .invoice _ => Option SupplierInvoice
  | .approveInvoice _ _ => Option SupplierInvoice
  | .getDiscrepancy _ => Option ProcurementDiscrepancy
  | .findOpen _ => Option ProcurementDiscrepancy
  | .resolveDiscrepancy _ _ => Option ProcurementDiscrepancy

inductive Write where
  | insertInvoice (inv : SupplierInvoice)
  | setInvoice (inv : SupplierInvoice)
  | insertLine (il : SupplierInvoiceLine)
  | insertDiscrepancy (d : ProcurementDiscrepancy)
  | setDiscrepancy (d : ProcurementDiscrepancy)

def ProcurementDb.apply (db : ProcurementDb) : Write → ProcurementDb
  | .insertInvoice inv => { db with invoices := db.invoices ++ [inv] }
  | .setInvoice inv =>
    { db with invoices := db.invoices.map fun x ↦ if x.id = inv.id then inv else x }
  | .insertLine il => { db with lines := db.lines ++ [il] }
  | .insertDiscrepancy d => { db with discrepancies := db.discrepancies ++ [d] }
  | .setDiscrepancy d =>
    { db with discrepancies := db.discrepancies.map fun x ↦ if x.id = d.id then d else x }

/-- The `SELECT` of `raiseInvoiceDiscrepancies` for one type. -/
def mismatches (db : ProcurementDb) (invoice : Uuid) : DiscrepancyType → List Mismatch
  | .quantity => (db.linesOf invoice).filterMap (quantityMismatch db)
  | .price => (db.linesOf invoice).filterMap (priceMismatch db)

/-- Execute a statement. `GetPurchaseOrder`, `GetSupplierInvoice` and `GetDiscrepancy` go through
the pool, so they see committed rows only. -/
def exec : (q : Query) → (committed view : ProcurementDb) → ℕ → List Write × Reply q
  | .getPurchaseOrder id, db, _, _ => ([], db.orders.find? (·.id = id))
  | .order id, _, db, _ => ([], db.orders.find? (·.id = id))
  | .insertInvoice order input, _, db, n =>
    logged .insertInvoice (insertInvoice env db n order input)
  | .insertLine invoice order ln, _, db, n =>
    loggedRow .insertLine (insertLine db n invoice order ln)
  | .setTotal id, _, db, _ => loggedRow .setInvoice (setTotal db id)
  | .mismatches invoice type, _, db, _ => ([], mismatches db invoice type)
  | .insertDiscrepancy m, _, _, n => ([.insertDiscrepancy (m.raised n)], m.raised n)
  | .openCount invoice, _, db, _ => ([], (db.openOf invoice).length)
  | .findUnapproved id, _, db, _ =>
    ([], db.invoices.find? fun inv ↦ inv.id = id ∧ inv.status ≠ .approved)
  | .setStatus id status, _, db, _ => loggedUpdate .setInvoice (setStatus db id status)
  | .getSupplierInvoice id, db, _, _ => ([], db.invoice id)
  | .invoice id, _, db, _ => ([], db.invoice id)
  | .approveInvoice id actor, _, db, _ => loggedUpdate .setInvoice (approveInvoice db id actor)
  | .getDiscrepancy id, db, _, _ => ([], db.discrepancies.find? (·.id = id))
  | .findOpen id, _, db, _ => ([], db.discrepancies.find? fun d ↦ d.id = id ∧ d.status = .opened)
  | .resolveDiscrepancy id actor, _, db, _ =>
    loggedUpdate .setDiscrepancy (resolveDiscrepancy db id actor)

/-- What a lock is taken on: an entry of the index on invoice numbers, or a row. -/
inductive LockKey where
  | invoiceNumber (supplier : Uuid) (number : String)
  | invoice (id : Uuid)
  | discrepancy (id : Uuid)
  deriving DecidableEq

inductive ProcurementResult where
  | invoice (inv : Option SupplierInvoice)
  | discrepancy (d : ProcurementDiscrepancy)

@[reducible] def schema : Schema where
  Db := ProcurementDb
  Write := Write
  Query := Query
  Reply := Reply
  Key := LockKey
  Result := ProcurementResult
  Error := HttpError
  apply := ProcurementDb.apply
  exec := exec env

instance : Refusals (schema env) := ⟨.http⟩

end FuelGrid.Procurement
