import FuelGrid.Accounting.Calls
import FuelGrid.Sql.OpenItems

/-!
# Customer invoices

The tables and the SQL statements of the finance side of `internal/receivables`: customer invoices
with their billed lines, the payments customers make, and the allocations of payments to invoices.
Issuing, paying and reversing post to the journal, so the general ledger sits in this database as a
part (`ledgerPart`). One tenant's rows are modelled.
-/

namespace FuelGrid.Receivables

open Sql

structure Env where
  /-- Whether `parseDecimal` takes the amount and the `float64` it returns is not `<= 0`, which
  holds of `NaN`. -/
  positive : Numeric → Bool
  chart : Chart

/-! ## Tables

Money is `numeric(14,2)` in cents, with `⊤` for `NaN`. Customers and stations do not change here. -/

/-- `LEAST(x, y)` -/
def least (x y : Money) : Money := if x ≤ y then x else y

inductive InvoiceStatus where
  | draft | issued | partiallyPaid | paid | voided
  deriving DecidableEq

inductive SourceType where
  | creditSale | manual | adjustment

/-- The texts that `chk_customer_invoice_source` allows; the empty text counts as `manual`. -/
def SourceType.ofText (text : String) : Option SourceType :=
  if text = "" ∨ text = "manual" then some .manual
  else if text = "credit_sale" then some .creditSale
  else if text = "adjustment" then some .adjustment
  else none

structure CustomerInvoice where
  id : Uuid
  customerId : Uuid
  invoiceDate : ℤ
  amount : Money
  outstandingAmount : Money
  sourceType : SourceType
  sourceId : Option Uuid
  stationId : Option Uuid
  status : InvoiceStatus
  journalEntryId : Option Uuid
  createdBy : Uuid
  /-- `chk_customer_invoice_amount` -/
  amounts : 0 ≤ amount ∧ 0 ≤ outstandingAmount

structure InvoiceLine where
  customerInvoiceId : Uuid
  amount : Money
  revenueAccountKey : String
  /-- `chk_cil_amount` -/
  amount_pos : 0 < amount

inductive PaymentStatus where
  | posted | voided
  deriving DecidableEq

structure CustomerPayment where
  id : Uuid
  customerId : Uuid
  paymentDate : ℤ
  method : String
  amount : Money
  allocatedAmount : Money
  sourceAccountKey : String
  status : PaymentStatus
  journalEntryId : Option Uuid
  createdBy : Uuid
  /-- `chk_customer_payments_amount` -/
  amounts : 0 ≤ amount ∧ 0 ≤ allocatedAmount

structure PaymentAllocation where
  customerPaymentId : Uuid
  customerInvoiceId : Uuid
  amount : Money
  /-- `chk_cpa_amount` -/
  amount_pos : 0 < amount

structure ReceivablesDb where
  customers : List Uuid
  stations : List Uuid
  invoices : List CustomerInvoice
  lines : List InvoiceLine
  payments : List CustomerPayment
  allocations : List PaymentAllocation
  ledger : AccountingDb

namespace ReceivablesDb

variable (db : ReceivablesDb)

def linesOf (invoice : Uuid) : List InvoiceLine := db.lines.filter (·.customerInvoiceId = invoice)

def allocationsOf (payment : Uuid) : List PaymentAllocation :=
  db.allocations.filter (·.customerPaymentId = payment)

end ReceivablesDb

/-! ## Statements -/

structure InvoiceInput where
  customerId : Uuid
  invoiceDate : ℤ
  sourceType : String
  sourceId : Option Uuid
  stationId : Option Uuid
  createdBy : Uuid

/-- The insert of `CreateInvoice`. -/
def insertInvoice (db : ReceivablesDb) (n : ℕ) (input : InvoiceInput) :
    Except PgError CustomerInvoice :=
  match SourceType.ofText input.sourceType with
  | none => .error .checkViolation
  | some sourceType =>
    -- customer_invoice_customer_fk, customer_invoice_station_fk
    if input.customerId ∈ db.customers ∧ input.stationId.all (· ∈ db.stations) then
      .ok {
        id := n
        customerId := input.customerId
        invoiceDate := input.invoiceDate
        amount := 0
        outstandingAmount := 0
        sourceType
        sourceId := input.sourceId
        stationId := input.stationId
        status := .draft
        journalEntryId := none
        createdBy := input.createdBy
        amounts := ⟨le_rfl, le_rfl⟩ }
    else .error .foreignKeyViolation

/-- The insert of `AddInvoiceLine`. -/
def insertLine (db : ReceivablesDb) (invoice : Uuid) (amount : Numeric)
    (revenueAccountKey : String) :
    Except PgError InvoiceLine :=
  match amount.store 14 2 with
  | none => .error .numericOverflow
  | some amount =>
    if amount_pos : 0 < amount then
      -- cil_invoice_fk
      if ∃ i ∈ db.invoices, i.id = invoice then
        .ok { customerInvoiceId := invoice, amount, revenueAccountKey, amount_pos }
      else .error .foreignKeyViolation
    else .error .checkViolation

/-- The update of `FinalizeInvoiceAmount`. -/
def finalizeAmount (db : ReceivablesDb) (invoice : Uuid) :
    Except PgError (Option CustomerInvoice) :=
  match db.invoices.find? (·.id = invoice) with
  | none => .ok none
  | some i =>
    match (ofUnits 2 ((db.linesOf invoice).map (·.amount)).sum).store 14 2 with
    | none => .error .numericOverflow
    | some total =>
      if h : 0 ≤ total then
        .ok (some { i with amount := total, outstandingAmount := total, amounts := ⟨h, h⟩ })
      else .error .checkViolation

/-- The update of `IssueInvoice`. -/
def issueInvoice (db : ReceivablesDb) (id : Uuid) : Option CustomerInvoice :=
  (db.invoices.find? fun i ↦ i.id = id ∧ i.status = .draft).map fun i ↦ { i with status := .issued }

/-- `RevenueBreakdown`, with the groups in the order of their first lines. -/
def revenueBreakdown (db : ReceivablesDb) (invoice : Uuid) : List (String × Money) :=
  ((db.linesOf invoice).map (·.revenueAccountKey)).dedup.map fun key ↦
    (key, (((db.linesOf invoice).filter (·.revenueAccountKey = key)).map (·.amount)).sum)

/-- The update of `SetInvoiceJournalEntry`. -/
def setInvoiceEntry (db : ReceivablesDb) (id entry : Uuid) : Option CustomerInvoice :=
  (db.invoices.find? (·.id = id)).map fun i ↦ { i with journalEntryId := some entry }

/-- `CustomerPaymentInput` -/
structure PaymentInput where
  customerId : Uuid
  paymentDate : ℤ
  method : String
  sourceAccountKey : String
  createdBy : Uuid

/-- The insert of `CreateCustomerPayment`. -/
def insertPayment (db : ReceivablesDb) (n : ℕ) (input : PaymentInput) :
    Except PgError CustomerPayment :=
  -- customer_payments_customer_fk
  if input.customerId ∈ db.customers then
    .ok {
      id := n
      customerId := input.customerId
      paymentDate := input.paymentDate
      method := input.method
      amount := 0
      allocatedAmount := 0
      sourceAccountKey := if input.sourceAccountKey = "" then "bank" else input.sourceAccountKey
      status := .posted
      journalEntryId := none
      createdBy := input.createdBy
      amounts := ⟨le_rfl, le_rfl⟩ }
  else .error .foreignKeyViolation

/-- The rows that `ApplyInvoicePayment` updates. -/
def CustomerInvoice.Payable (i : CustomerInvoice) (id customer : Uuid) (amount : Numeric) : Prop :=
  i.id = id ∧ i.customerId = customer ∧ (i.status = .issued ∨ i.status = .partiallyPaid) ∧
    amount ≤ .ofUnits 2 i.outstandingAmount
  deriving Decidable

/-- The update of `ApplyInvoicePayment`. The status looks at the value before it is rounded. -/
def applyPayment (db : ReceivablesDb) (customer id : Uuid) (amount : Numeric) :
    Except PgError (Option CustomerInvoice) :=
  match db.invoices.find? (·.Payable id customer amount) with
  | none => .ok none
  | some i =>
    match amount.drawn 14 2 i.outstandingAmount with
    | none => .error .numericOverflow
    | some (left, settled) =>
      if h : 0 ≤ left then
        .ok (some { i with
          outstandingAmount := left
          status := if settled then .paid else .partiallyPaid
          amounts := ⟨i.amounts.1, h⟩ })
      else .error .checkViolation

/-- The insert of `AddCustomerAllocation`. -/
def insertAllocation (db : ReceivablesDb) (payment invoice : Uuid) (amount : Numeric) :
    Except PgError PaymentAllocation :=
  match amount.store 14 2 with
  | none => .error .numericOverflow
  | some amount =>
    if amount_pos : 0 < amount then
      -- cpa_payment_fk, cpa_invoice_fk
      if (∃ p ∈ db.payments, p.id = payment) ∧ ∃ i ∈ db.invoices, i.id = invoice then
        .ok { customerPaymentId := payment, customerInvoiceId := invoice, amount, amount_pos }
      else .error .foreignKeyViolation
    else .error .checkViolation

/-- The update of `AddCustomerAllocation`. -/
def bumpPayment (db : ReceivablesDb) (payment : Uuid) (amount : Numeric) :
    Except PgError (Option CustomerPayment) :=
  match db.payments.find? (·.id = payment) with
  | none => .ok none
  | some p =>
    match (.ofUnits 2 p.allocatedAmount + amount).store 14 2,
        (.ofUnits 2 p.amount + amount).store 14 2 with
    | some allocatedAmount, some total =>
      if h : 0 ≤ total ∧ 0 ≤ allocatedAmount then
        .ok (some { p with allocatedAmount, amount := total, amounts := h })
      else .error .checkViolation
    | _, _ => .error .numericOverflow

/-- The update of `SetCustomerPaymentJournalEntry`. -/
def setPaymentEntry (db : ReceivablesDb) (id entry : Uuid) : Option CustomerPayment :=
  (db.payments.find? (·.id = id)).map fun p ↦ { p with journalEntryId := some entry }

/-- The update of `ReverseCustomerPayment` on an invoice: the allocation is added back, without
exceeding the amount. -/
def restoreInvoice (db : ReceivablesDb) (invoice : Uuid) (amount : Money) :
    Except PgError (Option CustomerInvoice) :=
  match db.invoices.find? (·.id = invoice) with
  | none => .ok none
  | some i =>
    let restored := least (i.outstandingAmount + amount) i.amount
    match (ofUnits 2 restored).store 14 2 with
    | none => .error .numericOverflow
    | some left =>
      if h : 0 ≤ left then
        .ok (some { i with
          outstandingAmount := left
          status := if i.amount ≤ restored then .issued else .partiallyPaid
          amounts := ⟨i.amounts.1, h⟩ })
      else .error .checkViolation

/-- The update of `ReverseCustomerPayment` on the payment. -/
def voidPayment (db : ReceivablesDb) (id : Uuid) : Option CustomerPayment :=
  (db.payments.find? (·.id = id)).map fun p ↦ { p with status := .voided }

inductive Query where
  | insertInvoice (input : InvoiceInput)
  | insertLine (invoice : Uuid) (amount : Numeric) (revenueAccountKey : String)
  | finalizeAmount (invoice : Uuid)
  | issueInvoice (id : Uuid)
  | revenueBreakdown (invoice : Uuid)
  | setInvoiceEntry (id entry : Uuid)
  | insertPayment (input : PaymentInput)
  | applyPayment (customer id : Uuid) (amount : Numeric)
  | invoiceOwner (id : Uuid)
  | insertAllocation (payment invoice : Uuid) (amount : Numeric)
  | bumpPayment (payment : Uuid) (amount : Numeric)
  | setPaymentEntry (id entry : Uuid)
  | getPayment (id : Uuid)
  | listAllocations (payment : Uuid)
  | restoreInvoice (invoice : Uuid) (amount : Money)
  | voidPayment (id : Uuid)
  | ledger (q : Accounting.Query)

abbrev Reply : Query → Type
  | .insertInvoice _ => Except PgError CustomerInvoice
  | .insertLine _ _ _ => Except PgError InvoiceLine
  | .finalizeAmount _ => Except PgError (Option CustomerInvoice)
  | .issueInvoice _ => Option CustomerInvoice
  | .revenueBreakdown _ => List (String × Money)
  | .setInvoiceEntry _ _ => Option CustomerInvoice
  | .insertPayment _ => Except PgError CustomerPayment
  | .applyPayment _ _ _ => Except PgError (Option CustomerInvoice)
  | .invoiceOwner _ => Option Uuid
  | .insertAllocation _ _ _ => Except PgError PaymentAllocation
  | .bumpPayment _ _ => Except PgError (Option CustomerPayment)
  | .setPaymentEntry _ _ => Option CustomerPayment
  | .getPayment _ => Option CustomerPayment
  | .listAllocations _ => List PaymentAllocation
  | .restoreInvoice _ _ => Except PgError (Option CustomerInvoice)
  | .voidPayment _ => Option CustomerPayment
  | .ledger q => Accounting.Reply q

inductive Write where
  | insertInvoice (i : CustomerInvoice)
  | setInvoice (i : CustomerInvoice)
  | insertLine (l : InvoiceLine)
  | insertPayment (p : CustomerPayment)
  | setPayment (p : CustomerPayment)
  | insertAllocation (a : PaymentAllocation)
  | ledger (w : Accounting.Write)

def ReceivablesDb.apply (db : ReceivablesDb) : Write → ReceivablesDb
  | .insertInvoice i => { db with invoices := db.invoices ++ [i] }
  | .setInvoice i => { db with invoices := db.invoices.map fun x ↦ if x.id = i.id then i else x }
  | .insertLine l => { db with lines := db.lines ++ [l] }
  | .insertPayment p => { db with payments := db.payments ++ [p] }
  | .setPayment p => { db with payments := db.payments.map fun x ↦ if x.id = p.id then p else x }
  | .insertAllocation a => { db with allocations := db.allocations ++ [a] }
  | .ledger w => { db with ledger := db.ledger.apply w }

variable (env : Env)

/-- Execute a statement. `ListCustomerAllocations` goes through the pool, so it sees committed rows
only. -/
def exec : (q : Query) → (committed view : ReceivablesDb) → ℕ → List Write × Reply q
  | .insertInvoice input, _, db, n => logged .insertInvoice (insertInvoice db n input)
  | .insertLine invoice amount key, _, db, _ =>
    logged .insertLine (insertLine db invoice amount key)
  | .finalizeAmount invoice, _, db, _ => loggedRow .setInvoice (finalizeAmount db invoice)
  | .issueInvoice id, _, db, _ => loggedUpdate .setInvoice (issueInvoice db id)
  | .revenueBreakdown invoice, _, db, _ => ([], revenueBreakdown db invoice)
  | .setInvoiceEntry id entry, _, db, _ => loggedUpdate .setInvoice (setInvoiceEntry db id entry)
  | .insertPayment input, _, db, n => logged .insertPayment (insertPayment db n input)
  | .applyPayment customer id amount, _, db, _ =>
    loggedRow .setInvoice (applyPayment db customer id amount)
  | .invoiceOwner id, _, db, _ => ([], (db.invoices.find? (·.id = id)).map (·.customerId))
  | .insertAllocation payment invoice amount, _, db, _ =>
    logged .insertAllocation (insertAllocation db payment invoice amount)
  | .bumpPayment payment amount, _, db, _ => loggedRow .setPayment (bumpPayment db payment amount)
  | .setPaymentEntry id entry, _, db, _ => loggedUpdate .setPayment (setPaymentEntry db id entry)
  | .getPayment id, _, db, _ => ([], db.payments.find? (·.id = id))
  | .listAllocations payment, db, _, _ => ([], db.allocationsOf payment)
  | .restoreInvoice invoice amount, _, db, _ =>
    loggedRow .setInvoice (restoreInvoice db invoice amount)
  | .voidPayment id, _, db, _ => loggedUpdate .setPayment (voidPayment db id)
  | .ledger q, committed, view, n =>
    ((Accounting.exec env.chart q committed.ledger view.ledger n).1.map .ledger,
      (Accounting.exec env.chart q committed.ledger view.ledger n).2)

/-- What a lock is taken on: a row. -/
inductive LockKey where
  | invoice (id : Uuid)
  | payment (id : Uuid)
  | ledger (k : Accounting.LockKey)
  deriving DecidableEq

inductive ReceivablesResult where
  | done
  | invoice (id : Uuid)
  | payment (id entry : Uuid)
  | reversed (id : Uuid) (entry : Option Uuid)

@[reducible] def schema : Schema where
  Db := ReceivablesDb
  Write := Write
  Query := Query
  Reply := Reply
  Key := LockKey
  Result := ReceivablesResult
  Error := HttpError
  apply := ReceivablesDb.apply
  exec := exec env

def ledgerPart : Part (Accounting.schema env.chart) (schema env) where
  part db := db.ledger
  put db ledger := { db with ledger }
  write := .ledger
  query := .ledger
  reply _ r := r
  key := .ledger
  result _ := .done
  error _ := .http 500 "internal error"
  put_part _ := rfl
  part_put _ _ := rfl
  put_put _ _ _ := rfl
  key_inj _ _ h := LockKey.ledger.inj h
  apply_write _ _ := rfl
  exec_writes _ _ _ _ := rfl
  exec_reply _ _ _ _ := rfl

instance : Ledgered env.chart (schema env) where
  http := .http
  ledger := ledgerPart env

end FuelGrid.Receivables
