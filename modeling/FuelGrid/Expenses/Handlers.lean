import FuelGrid.Expenses.Schema

/-!
# Moving petty cash and posting expenses

The handlers of `expenses_handlers.go` that post to the journal, each as its transaction. The body
checks before `Begin` come first in the program. An `UPDATE` by id is its row lock followed by the
statement.
-/

namespace FuelGrid.Expenses

open Sql

variable (env : Env)

/-- A transaction on the tables of expenses. -/
abbrev Txn := Prog (schema env)

def textPair (debit credit : String) (amount : Numeric) : List PostLine := [
  { systemKey := debit, debit := some amount, credit := some (.finite 0) },
  { systemKey := credit, debit := some (.finite 0), credit := some amount }]

/-! ## Petty cash

`ReconcileFloat` reads the balance of the float without a lock and updates it two statements later.
-/

/-- The body of `handlePettyCashTransaction`. A `txn_type` that is not one of the five is `none`;
`badDate` says that a date was given and does not parse. -/
structure TransactionRequest where
  actor : Uuid
  floatId : Uuid
  txnType : Option TxnType
  amount : Numeric
  badDate : Bool
  date : ℤ
  accountKey : Option String
  overdraw : Bool
  now : ℤ

/-- The account that a spend is charged to. -/
def spendKey : Option String → String
  | some key => if key = "" then "operating_expense" else key
  | none => "operating_expense"

def TransactionRequest.lines (req : TransactionRequest) : TxnType → List PostLine
  | .topup | .reimbursement => textPair "petty_cash" "bank" req.amount
  | .spend => textPair (spendKey req.accountKey) "petty_cash" req.amount
  | .adjustment => textPair "petty_cash" "cash_over_short" req.amount
  | .transfer => textPair "bank" "petty_cash" req.amount

def TransactionRequest.entry (req : TransactionRequest) (type : TxnType) (id : Uuid) :
    PostEntryInput where
  entryDate := req.date
  sourceType := "petty_cash"
  sourceId := some id
  postedBy := req.actor
  lines := req.lines type

def recordMoved (req : TransactionRequest) (type : TxnType) (balanceAfter : Money) : Txn env :=
  .query (.insertTransaction {
      floatId := req.floatId
      txnType := type
      amount := req.amount
      balanceAfter
      accountKey := req.accountKey
      overdraw := req.overdraw
      createdBy := req.actor }) fun
    | .error _ => internalError
    | .ok t => post (req.entry type t.id) req.now fun e ↦
        .query (.setTransactionEntry t.id e.entry.id) fun _ ↦ commit (.transaction t e.entry.id)

/-- `handlePettyCashTransaction` with `RecordTransaction` -/
def handlePettyCashTransaction (req : TransactionRequest) : Txn env :=
  match req.txnType with
  | none => refuse 400 "txn_type must be topup|spend|reimbursement|adjustment|transfer"
  | some type =>
    if !env.positive req.amount then refuse 400 "amount must be a positive decimal"
    else if req.badDate then refuse 400 "date must be YYYY-MM-DD"
    else .query (.floatStatus req.floatId) fun
      | none => refuse 404 "float not found"
      | some status =>
        if status ≠ .active then refuse 409 "float is not active"
        else .lock (.float req.floatId) <|
          .query (.moveBalance req.floatId type req.amount req.overdraw) fun
            | .error _ => internalError
            | .ok none =>
              refuse 422 "transaction would overdraw the float; set overdraw to override"
            | .ok (some balance) => recordMoved env req type balance

/-- The body of `handleReconcilePettyCash`. -/
structure CountRequest where
  actor : Uuid
  floatId : Uuid
  counted : Numeric
  badDate : Bool
  date : ℤ
  now : ℤ

def CountReply.lines (rec : CountReply) : List PostLine :=
  if !env.isZeroMoney rec.shortAmount then textPair "cash_over_short" "petty_cash" rec.shortAmount
  else if !env.isZeroMoney rec.overAmount then
    textPair "petty_cash" "cash_over_short" rec.overAmount
  else []

def CountRequest.entry (req : CountRequest) (rec : CountReply) : PostEntryInput where
  entryDate := req.date
  sourceType := "petty_cash_reconciliation"
  sourceId := some rec.row.id
  postedBy := req.actor
  lines := rec.lines env

/-- The part of the count after `ReconcileFloat`. -/
def postVariance (req : CountRequest) (rec : CountReply) : Txn env :=
  if rec.lines env = [] then commit (.count rec.row)
  else post (req.entry env rec) req.now fun e ↦
    .query (.setCountEntry rec.row.id e.entry.id) fun _ ↦ commit (.count rec.row)

/-- `handleReconcilePettyCash` with `ReconcileFloat` -/
def handleReconcilePettyCash (req : CountRequest) : Txn env :=
  if !env.nonNegative req.counted then refuse 400 "counted_cash must be a non-negative decimal"
  else if req.badDate then refuse 400 "date must be YYYY-MM-DD"
  else .query (.floatBalance req.floatId) fun
    | none => refuse 404 "float not found"
    | some expected => .query (.insertCount req.floatId expected req.counted req.actor) fun
      | .error _ => internalError
      | .ok rec => .lock (.float req.floatId) <| .query (.setBalance req.floatId req.counted) fun
        | .error _ => internalError
        | .ok () => postVariance env req rec

/-! ## Expenses -/

/-- `paymentModeAccount` -/
def PaymentMode.account : PaymentMode → String
  | .bank => "bank"
  | .payable => "accounts_payable"
  | .pettyCash => "petty_cash"
  | .cash => "cash_on_hand"

def Expense.entry (actor : Uuid) (exp : Expense) : PostEntryInput where
  entryDate := exp.expenseDate
  sourceType := "expense"
  sourceId := some exp.id
  stationId := exp.stationId
  postedBy := actor
  lines := amountPair exp.accountKey exp.paymentMode.account exp.amount exp.stationId

def handlePostExpense (actor id : Uuid) (now : ℤ) : Txn env :=
  .query (.getExpense id) fun
    | none => refuse 404 "expense not found"
    | some exp =>
      if exp.status ≠ .approved then refuse 409 "expense must be approved before posting"
      else post (exp.entry actor) now fun e ↦
        .lock (.expense id) <| .query (.markExpensePosted id e.entry.id) fun
          | none => internalError
          | some _ => commit .done

inductive ExpensesOp where
  | transaction (req : TransactionRequest)
  | reconcile (req : CountRequest)
  | postExpense (actor id : Uuid) (now : ℤ)

def ExpensesOp.prog : ExpensesOp → Txn env
  | .transaction req => handlePettyCashTransaction env req
  | .reconcile req => handleReconcilePettyCash env req
  | .postExpense actor id now => handlePostExpense env actor id now

end FuelGrid.Expenses
