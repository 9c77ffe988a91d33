import FuelGrid.Accounting.Calls
import FuelGrid.Sql.OpenItems

/-!
# Supplier payables

The tables and the SQL statements of `internal/payables`: a payable for each approved supplier
invoice, the payments made to suppliers, and the allocations of payments to payables. Imports and
payments post to the journal, so the general ledger sits in this database as a part (`ledgerPart`).
One tenant's rows are modelled.
-/

namespace FuelGrid.Payables

open Sql

structure Env where
  /-- Whether `parseDecimal` takes the amount and the `float64` it returns is not `<= 0`, which
  holds of `NaN`. -/
  positive : Numeric → Bool
  chart : Chart

/-! ## Tables

Supplier invoices are written by procurement. An import is given the rows of that table at its time.
Money is `numeric(14,2)` in cents, with `⊤` for `NaN`. -/

inductive SupplierInvoiceStatus where
  | recorded | matched | discrepancy | approved
  deriving DecidableEq

structure SupplierInvoice where
  id : Uuid
  supplierId : Uuid
  stationId : Uuid
  status : SupplierInvoiceStatus
  /-- `received_at::date` -/
  receivedDate : ℤ
  totalAmount : Money
  /-- `chk_supplier_invoices_total` -/
  total_nonneg : 0 ≤ totalAmount

inductive PayableStatus where
  | opened | partiallyPaid | paid | voided
  deriving DecidableEq

structure Payable where
  id : Uuid
  supplierId : Uuid
  sourceInvoiceId : Uuid
  invoiceDate : Option ℤ
  amount : Money
  outstandingAmount : Money
  stationId : Option Uuid
  status : PayableStatus
  journalEntryId : Option Uuid
  /-- `chk_payables_amounts` -/
  amounts : 0 ≤ amount ∧ 0 ≤ outstandingAmount

inductive PaymentStatus where
  | posted | voided

structure SupplierPayment where
  id : Uuid
  supplierId : Uuid
  paymentDate : ℤ
  method : String
  amount : Money
  allocatedAmount : Money
  sourceAccountKey : String
  status : PaymentStatus
  journalEntryId : Option Uuid
  createdBy : Uuid
  /-- `chk_supplier_payments_amount` -/
  amount_nonneg : 0 ≤ amount
  allocated_nonneg : 0 ≤ allocatedAmount

structure PaymentAllocation where
  supplierPaymentId : Uuid
  payableId : Uuid
  amount : Money
  /-- `chk_spa_amount` -/
  amount_pos : 0 < amount

structure PayablesDb where
  suppliers : List Uuid
  stations : List Uuid
  payables : List Payable
  payments : List SupplierPayment
  allocations : List PaymentAllocation
  ledger : AccountingDb

/-! ## Statements -/

/-- The `SELECT` of `ImportApprovedInvoices`. -/
def approvedWithoutPayable (db : PayablesDb) (invoices : List SupplierInvoice) :
    List SupplierInvoice :=
  invoices.filter fun si ↦ si.status = .approved ∧ ∀ p ∈ db.payables, p.sourceInvoiceId ≠ si.id

/-- The insert of `ImportApprovedInvoices`, for one of the selected rows. -/
def insertPayable (db : PayablesDb) (n : ℕ) (si : SupplierInvoice) : Except PgError Payable :=
  -- uq_payables_source_invoice
  if ∃ p ∈ db.payables, p.sourceInvoiceId = si.id then .error .uniqueViolation
  -- payables_supplier_fk, payables_station_fk
  else if si.supplierId ∈ db.suppliers ∧ si.stationId ∈ db.stations then
    .ok {
      id := n
      supplierId := si.supplierId
      sourceInvoiceId := si.id
      invoiceDate := some si.receivedDate
      amount := si.totalAmount
      outstandingAmount := si.totalAmount
      stationId := some si.stationId
      status := .opened
      journalEntryId := none
      amounts := ⟨si.total_nonneg, si.total_nonneg⟩ }
  else .error .foreignKeyViolation

/-- The update of `SetJournalEntry`. -/
def setEntry (db : PayablesDb) (id entry : Uuid) : Option Payable :=
  (db.payables.find? (·.id = id)).map fun p ↦ { p with journalEntryId := some entry }

/-- `PaymentInput`; the amount is that of the header. -/
structure PaymentInput where
  supplierId : Uuid
  paymentDate : ℤ
  method : String
  sourceAccountKey : String
  createdBy : Uuid

/-- The insert of `CreatePayment` with the amount zero. The supplier is not checked. -/
def insertPayment (n : ℕ) (input : PaymentInput) : SupplierPayment where
  id := n
  supplierId := input.supplierId
  paymentDate := input.paymentDate
  method := input.method
  amount := 0
  allocatedAmount := 0
  sourceAccountKey := if input.sourceAccountKey = "" then "bank" else input.sourceAccountKey
  status := .posted
  journalEntryId := none
  createdBy := input.createdBy
  amount_nonneg := le_rfl
  allocated_nonneg := le_rfl

/-- The rows that `ApplyPayment` updates. The supplier of the payment does not matter. -/
def Payable.Open (p : Payable) (id : Uuid) (amount : Numeric) : Prop :=
  p.id = id ∧ p.status ≠ .voided ∧ amount ≤ .ofUnits 2 p.outstandingAmount
  deriving Decidable

/-- The update of `ApplyPayment`. The status looks at the value before it is rounded. -/
def applyPayment (db : PayablesDb) (id : Uuid) (amount : Numeric) :
    Except PgError (Option Payable) :=
  match db.payables.find? (·.Open id amount) with
  | none => .ok none
  | some p =>
    match amount.drawn 14 2 p.outstandingAmount with
    | none => .error .numericOverflow
    | some (left, settled) =>
      if h : 0 ≤ left then
        .ok (some { p with
          outstandingAmount := left
          status := if settled then .paid else .partiallyPaid
          amounts := ⟨p.amounts.1, h⟩ })
      else .error .checkViolation

/-- The insert of `AddAllocation`. -/
def insertAllocation (db : PayablesDb) (payment payable : Uuid) (amount : Numeric) :
    Except PgError PaymentAllocation :=
  match amount.store 14 2 with
  | none => .error .numericOverflow
  | some amount =>
    if amount_pos : 0 < amount then
      -- spa_payment_fk, spa_payable_fk
      if (∃ p ∈ db.payments, p.id = payment) ∧ ∃ p ∈ db.payables, p.id = payable then
        .ok { supplierPaymentId := payment, payableId := payable, amount, amount_pos }
      else .error .foreignKeyViolation
    else .error .checkViolation

/-- The update of `AddAllocation`. -/
def bumpPayment (db : PayablesDb) (payment : Uuid) (amount : Numeric) :
    Except PgError (Option SupplierPayment) :=
  match db.payments.find? (·.id = payment) with
  | none => .ok none
  | some p =>
    match (.ofUnits 2 p.allocatedAmount + amount).store 14 2 with
    | none => .error .numericOverflow
    | some allocatedAmount =>
      if h : 0 ≤ allocatedAmount then
        .ok (some { p with allocatedAmount, allocated_nonneg := h })
      else .error .checkViolation

/-- The update that sets the amount of a payment to what it has allocated. -/
def setPaymentAmount (db : PayablesDb) (id : Uuid) : Option SupplierPayment :=
  (db.payments.find? (·.id = id)).map fun p ↦
    { p with amount := p.allocatedAmount, amount_nonneg := p.allocated_nonneg }

/-- The update of `SetPaymentJournalEntry`. -/
def setPaymentEntry (db : PayablesDb) (id entry : Uuid) : Option SupplierPayment :=
  (db.payments.find? (·.id = id)).map fun p ↦ { p with journalEntryId := some entry }

/-- The statements. The insert of `ImportApprovedInvoices` is its `SELECT` and then one insert for
each row it finds. -/
inductive Query where
  | approvedWithoutPayable (invoices : List SupplierInvoice)
  | insertPayable (si : SupplierInvoice)
  | setEntry (id entry : Uuid)
  | insertPayment (input : PaymentInput)
  | applyPayment (id : Uuid) (amount : Numeric)
  | insertAllocation (payment payable : Uuid) (amount : Numeric)
  | bumpPayment (payment : Uuid) (amount : Numeric)
  | setPaymentAmount (id : Uuid)
  | setPaymentEntry (id entry : Uuid)
  | ledger (q : Accounting.Query)

abbrev Reply : Query → Type
  | .approvedWithoutPayable _ => List SupplierInvoice
  | .insertPayable _ => Except PgError Payable
  | .setEntry _ _ => Option Payable
  | .insertPayment _ => SupplierPayment
  | .applyPayment _ _ => Except PgError (Option Payable)
  | .insertAllocation _ _ _ => Except PgError PaymentAllocation
  | .bumpPayment _ _ => Except PgError (Option SupplierPayment)
  | .setPaymentAmount _ => Option SupplierPayment
  | .setPaymentEntry _ _ => Option SupplierPayment
  | .ledger q => Accounting.Reply q

inductive Write where
  | insertPayable (p : Payable)
  | setPayable (p : Payable)
  | insertPayment (p : SupplierPayment)
  | setPayment (p : SupplierPayment)
  | insertAllocation (a : PaymentAllocation)
  | ledger (w : Accounting.Write)

def PayablesDb.apply (db : PayablesDb) : Write → PayablesDb
  | .insertPayable p => { db with payables := db.payables ++ [p] }
  | .setPayable p => { db with payables := db.payables.map fun x ↦ if x.id = p.id then p else x }
  | .insertPayment p => { db with payments := db.payments ++ [p] }
  | .setPayment p => { db with payments := db.payments.map fun x ↦ if x.id = p.id then p else x }
  | .insertAllocation a => { db with allocations := db.allocations ++ [a] }
  | .ledger w => { db with ledger := db.ledger.apply w }

variable (env : Env)

def exec : (q : Query) → (committed view : PayablesDb) → ℕ → List Write × Reply q
  | .approvedWithoutPayable invoices, _, db, _ => ([], approvedWithoutPayable db invoices)
  | .insertPayable si, _, db, n => logged .insertPayable (insertPayable db n si)
  | .setEntry id entry, _, db, _ => loggedUpdate .setPayable (setEntry db id entry)
  | .insertPayment input, _, _, n =>
    ([.insertPayment (insertPayment n input)], insertPayment n input)
  | .applyPayment id amount, _, db, _ => loggedRow .setPayable (applyPayment db id amount)
  | .insertAllocation payment payable amount, _, db, _ =>
    logged .insertAllocation (insertAllocation db payment payable amount)
  | .bumpPayment payment amount, _, db, _ => loggedRow .setPayment (bumpPayment db payment amount)
  | .setPaymentAmount id, _, db, _ => loggedUpdate .setPayment (setPaymentAmount db id)
  | .setPaymentEntry id entry, _, db, _ => loggedUpdate .setPayment (setPaymentEntry db id entry)
  | .ledger q, committed, view, n =>
    ((Accounting.exec env.chart q committed.ledger view.ledger n).1.map .ledger,
      (Accounting.exec env.chart q committed.ledger view.ledger n).2)

/-- What a lock is taken on: a row. -/
inductive LockKey where
  | payable (id : Uuid)
  | payment (id : Uuid)
  | ledger (k : Accounting.LockKey)
  deriving DecidableEq

inductive PayablesResult where
  | done
  | imported (count : ℕ)
  | payment (id entry : Uuid)

@[reducible] def schema : Schema where
  Db := PayablesDb
  Write := Write
  Query := Query
  Reply := Reply
  Key := LockKey
  Result := PayablesResult
  Error := HttpError
  apply := PayablesDb.apply
  exec := exec env

def ledgerPart : Part (Accounting.schema env.chart) (schema env) where
  part db := db.ledger
  put db ledger := { db with ledger }
  write := .ledger
  query := .ledger
  reply _ r := r
  key := .ledger
  result _ := .done
  error _ := .http 500 "internal error"
  put_part _ := rfl
  part_put _ _ := rfl
  put_put _ _ _ := rfl
  key_inj _ _ h := LockKey.ledger.inj h
  apply_write _ _ := rfl
  exec_writes _ _ _ _ := rfl
  exec_reply _ _ _ _ := rfl

instance : Ledgered env.chart (schema env) where
  http := .http
  ledger := ledgerPart env

end FuelGrid.Payables
