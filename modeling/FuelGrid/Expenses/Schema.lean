import FuelGrid.Accounting.Net

/-!
# Petty cash and expenses

The tables and the SQL statements of `internal/expenses` that move money: the floats of petty cash
with their transactions and counts, and the posting of approved expenses. Both post to the journal,
which sits in this database as a part (`ledgerPart`). One tenant's rows are modelled; floats and
expenses are created elsewhere.
-/

namespace FuelGrid.Expenses

open Sql

structure Env where
  /-- Whether `parseDecimal` takes the text and the `float64` it returns is not `<= 0`, which holds
  of `NaN`. -/
  positive : Numeric → Bool
  /-- As `positive`, with `< 0`. -/
  nonNegative : Numeric → Bool
  /-- The `float64` of the text is zero, or there is none. -/
  isZeroMoney : Numeric → Bool
  chart : Chart
  /-- No amount of a column is so small that its `float64` is zero, or too large to have one. -/
  isZeroMoney_ofUnits : ∀ u : ℤ, |u| < 10 ^ 14 → isZeroMoney (.ofUnits 2 u) = decide (u = 0)

/-! ## Tables

Money is `numeric(14,2)` in cents, with `⊤` for `NaN`. Amounts arrive as texts, which PostgreSQL
computes with unrounded. -/

inductive FloatStatus where
  | active | suspended | closed
  deriving DecidableEq

/-- A row of `petty_cash_floats`. -/
structure PettyFloat where
  id : Uuid
  balance : Money
  status : FloatStatus

inductive TxnType where
  | topup | spend | reimbursement | adjustment | transfer
  deriving DecidableEq

structure PettyTransaction where
  id : Uuid
  floatId : Uuid
  txnType : TxnType
  amount : Money
  balanceAfter : Money
  accountKey : Option String
  overdraw : Bool
  journalEntryId : Option Uuid
  createdBy : Uuid
  /-- `chk_pct_amount` -/
  amount_pos : 0 < amount

/-- A row of `petty_cash_reconciliations`. -/
structure PettyCount where
  id : Uuid
  floatId : Uuid
  expectedBalance : Money
  countedCash : Money
  variance : Money
  journalEntryId : Option Uuid
  reconciledBy : Uuid

inductive ExpenseStatus where
  | draft | submitted | approved | posted | rejected | voided
  deriving DecidableEq

inductive PaymentMode where
  | cash | bank | payable | pettyCash
  deriving DecidableEq

structure Expense where
  id : Uuid
  stationId : Option Uuid
  expenseDate : ℤ
  amount : Money
  accountKey : String
  paymentMode : PaymentMode
  status : ExpenseStatus
  journalEntryId : Option Uuid
  /-- `chk_expense_amount` -/
  amount_pos : 0 < amount

structure ExpensesDb where
  floats : List PettyFloat
  transactions : List PettyTransaction
  counts : List PettyCount
  expenses : List Expense
  ledger : AccountingDb

/-! ## Statements -/

def TxnType.increases : TxnType → Bool
  | .topup | .reimbursement | .adjustment => true
  | .spend | .transfer => false

/-- `GREATEST(x, 0)` -/
def greatestZero (x : Numeric) : Numeric := if x ≤ .finite 0 then .finite 0 else x

section Statements

/-- The update of `RecordTransaction`: the new balance, if the guard lets it through. -/
def moveBalance (db : ExpensesDb) (floatId : Uuid) (type : TxnType) (amount : Numeric)
    (overdraw : Bool) : Except PgError (Option Money) :=
  match db.floats.find? (·.id = floatId) with
  | none => .ok none
  | some f =>
    let moved := .ofUnits 2 f.balance + if type.increases then amount else -amount
    if .finite 0 ≤ moved ∨ overdraw then
      match moved.store 14 2 with
      | none => .error .numericOverflow
      | some balance => .ok (some balance)
    else .ok none

/-- The row that `RecordTransaction` inserts. -/
structure TransactionInput where
  floatId : Uuid
  txnType : TxnType
  amount : Numeric
  balanceAfter : Money
  accountKey : Option String
  overdraw : Bool
  createdBy : Uuid

def insertTransaction (db : ExpensesDb) (n : ℕ) (input : TransactionInput) :
    Except PgError PettyTransaction :=
  match input.amount.store 14 2 with
  | none => .error .numericOverflow
  | some amount =>
    if amount_pos : 0 < amount then
      -- pct_float_fk
      if ∃ f ∈ db.floats, f.id = input.floatId then
        .ok {
          id := n
          floatId := input.floatId
          txnType := input.txnType
          amount
          balanceAfter := input.balanceAfter
          accountKey := input.accountKey
          overdraw := input.overdraw
          journalEntryId := none
          createdBy := input.createdBy
          amount_pos }
      else .error .foreignKeyViolation
    else .error .checkViolation

/-- `PettyReconciliation`, with the amounts that `ReconcileFloat` returns unrounded. -/
structure CountReply where
  row : PettyCount
  shortAmount : Numeric
  overAmount : Numeric

/-- The insert of `ReconcileFloat`. The expected balance is the one that was read before. -/
def insertCount (db : ExpensesDb) (n : ℕ) (floatId : Uuid) (expected : Money) (counted : Numeric)
    (reconciledBy : Uuid) : Except PgError CountReply :=
  match counted.store 14 2, (counted + -.ofUnits 2 expected).store 14 2 with
  | some countedCash, some variance =>
    -- pcr_float_fk
    if ∃ f ∈ db.floats, f.id = floatId then
      .ok {
        row := {
          id := n
          floatId
          expectedBalance := expected
          countedCash
          variance
          journalEntryId := none
          reconciledBy }
        shortAmount := greatestZero (.ofUnits 2 expected + -counted)
        overAmount := greatestZero (counted + -.ofUnits 2 expected) }
    else .error .foreignKeyViolation
  | _, _ => .error .numericOverflow

/-- The update of `MarkExpensePosted`. -/
def markExpensePosted (db : ExpensesDb) (id entry : Uuid) : Option Expense :=
  (db.expenses.find? (fun e ↦ e.id = id ∧ e.status = .approved)).map fun e ↦
    { e with status := .posted, journalEntryId := some entry }

/-- The update of `SetTransactionJournalEntry`. -/
def setTransactionEntry (db : ExpensesDb) (id entry : Uuid) : Option PettyTransaction :=
  (db.transactions.find? (·.id = id)).map fun t ↦ { t with journalEntryId := some entry }

/-- The update of `SetReconciliationJournalEntry`. -/
def setCountEntry (db : ExpensesDb) (id entry : Uuid) : Option PettyCount :=
  (db.counts.find? (·.id = id)).map fun c ↦ { c with journalEntryId := some entry }

end Statements

/-- The statements. `floatBalance` is the first read of `ReconcileFloat`, which takes no lock, and
`setBalance` its update; `getExpense` is a read on another connection. -/
inductive Query where
  | floatStatus (id : Uuid)
  | moveBalance (id : Uuid) (type : TxnType) (amount : Numeric) (overdraw : Bool)
  | insertTransaction (input : TransactionInput)
  | setTransactionEntry (id entry : Uuid)
  | floatBalance (id : Uuid)
  | insertCount (floatId : Uuid) (expected : Money) (counted : Numeric) (reconciledBy : Uuid)
  | setBalance (id : Uuid) (counted : Numeric)
  | setCountEntry (id entry : Uuid)
  | getExpense (id : Uuid)
  | markExpensePosted (id entry : Uuid)
  | ledger (q : Accounting.Query)

abbrev Reply : Query → Type
  | .floatStatus _ => Option FloatStatus
  | .moveBalance _ _ _ _ => Except PgError (Option Money)
  | .insertTransaction _ => Except PgError PettyTransaction
  | .setTransactionEntry _ _ => Option PettyTransaction
  | .floatBalance _ => Option Money
  | .insertCount _ _ _ _ => Except PgError CountReply
  | .setBalance _ _ => Except PgError Unit
  | .setCountEntry _ _ => Option PettyCount
  | .getExpense _ => Option Expense
  | .markExpensePosted _ _ => Option Expense
  | .ledger q => Accounting.Reply q

inductive Write where
  | setBalance (id : Uuid) (balance : Money)
  | insertTransaction (t : PettyTransaction)
  | setTransaction (t : PettyTransaction)
  | insertCount (c : PettyCount)
  | setCount (c : PettyCount)
  | setExpense (e : Expense)
  | ledger (w : Accounting.Write)

def setFloat (id : Uuid) (balance : Money) (floats : List PettyFloat) : List PettyFloat :=
  floats.map fun f ↦ if f.id = id then { f with balance } else f

def ExpensesDb.apply (db : ExpensesDb) : Write → ExpensesDb
  | .setBalance id balance => { db with floats := setFloat id balance db.floats }
  | .insertTransaction t => { db with transactions := db.transactions ++ [t] }
  | .setTransaction t =>
    { db with transactions := db.transactions.map fun x ↦ if x.id = t.id then t else x }
  | .insertCount c => { db with counts := db.counts ++ [c] }
  | .setCount c => { db with counts := db.counts.map fun x ↦ if x.id = c.id then c else x }
  | .setExpense e => { db with expenses := db.expenses.map fun x ↦ if x.id = e.id then e else x }
  | .ledger w => { db with ledger := db.ledger.apply w }

/-- The update of `ReconcileFloat`. A float that is gone is no error. -/
def storeCount (id : Uuid) (counted : Numeric) : List Write × Except PgError Unit :=
  match counted.store 14 2 with
  | none => ([], .error .numericOverflow)
  | some balance => ([.setBalance id balance], .ok ())

variable (env : Env)

def exec : (q : Query) → (committed view : ExpensesDb) → ℕ → List Write × Reply q
  | .floatStatus id, _, db, _ => ([], (db.floats.find? (·.id = id)).map (·.status))
  | .moveBalance id type amount overdraw, _, db, _ =>
    loggedRow (.setBalance id) (moveBalance db id type amount overdraw)
  | .insertTransaction input, _, db, n =>
    logged .insertTransaction (insertTransaction db n input)
  | .setTransactionEntry id entry, _, db, _ =>
    loggedUpdate .setTransaction (setTransactionEntry db id entry)
  | .floatBalance id, _, db, _ => ([], (db.floats.find? (·.id = id)).map (·.balance))
  | .insertCount floatId expected counted reconciledBy, _, db, n =>
    logged (fun r ↦ .insertCount r.row) (insertCount db n floatId expected counted reconciledBy)
  | .setBalance id counted, _, _, _ => storeCount id counted
  | .setCountEntry id entry, _, db, _ => loggedUpdate .setCount (setCountEntry db id entry)
  | .getExpense id, committed, _, _ => ([], committed.expenses.find? (·.id = id))
  | .markExpensePosted id entry, _, db, _ =>
    loggedUpdate .setExpense (markExpensePosted db id entry)
  | .ledger q, committed, view, n =>
    ((Accounting.exec env.chart q committed.ledger view.ledger n).1.map .ledger,
      (Accounting.exec env.chart q committed.ledger view.ledger n).2)

inductive LockKey where
  | float (id : Uuid)
  | expense (id : Uuid)
  | ledger (k : Accounting.LockKey)
  deriving DecidableEq

inductive ExpensesResult where
  | done
  | transaction (t : PettyTransaction) (entry : Uuid)
  | count (c : PettyCount)

@[reducible] def schema : Schema where
  Db := ExpensesDb
  Write := Write
  Query := Query
  Reply := Reply
  Key := LockKey
  Result := ExpensesResult
  Error := HttpError
  apply := ExpensesDb.apply
  exec := exec env

def ledgerPart : Part (Accounting.schema env.chart) (schema env) where
  part db := db.ledger
  put db ledger := { db with ledger }
  write := .ledger
  query := .ledger
  reply _ r := r
  key := .ledger
  result _ := .done
  error _ := .http 500 "internal error"
  put_part _ := rfl
  part_put _ _ := rfl
  put_put _ _ _ := rfl
  key_inj _ _ h := LockKey.ledger.inj h
  apply_write _ _ := rfl
  exec_writes _ _ _ _ := rfl
  exec_reply _ _ _ _ := rfl

instance : Ledgered env.chart (schema env) where
  http := .http
  ledger := ledgerPart env

end FuelGrid.Expenses
