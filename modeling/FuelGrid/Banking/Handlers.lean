import FuelGrid.Accounting.Net
import FuelGrid.Banking.Schema

/-!
# Reconciling cash and depositing it

The handlers of `banking_handlers.go` for cash reconciliations and bank deposits, each as its
transaction. The body checks before `Begin` come first in the program. An `UPDATE` by id is its row
lock followed by the statement, and an insert that can meet a unique index takes the lock on its
key.
-/

namespace FuelGrid.Banking

open Sql

variable (env : Env)

/-- A transaction on the tables of banking. -/
abbrev Txn := Prog (schema env)

/-! ## Cash reconciliations

A reconciliation is opened, counted and approved; the approval posts the count and what is over or
short. -/

/-- `handleCreateCashReconciliation`; the nil id of a day is `none`. -/
def handleCreateCashReconciliation (actor station : Uuid) (day : Option Uuid)
    (payments : List Tender) : Txn env :=
  match day with
  | none => refuse 400 "operating_day_id is required"
  | some day => .lock (.reconOfDay day) <| .query (.insertRecon station day actor payments) fun
    | .error .uniqueViolation =>
      refuse 409 "a cash reconciliation already exists for this operating day"
    | .error .foreignKeyViolation => refuse 400 "unknown station or operating day"
    | .error _ => internalError
    | .ok c => commit (.recon c)

def handleSubmitCashReconciliation (id : Uuid) (counted : Numeric) : Txn env :=
  if !env.nonNegative counted then refuse 400 "counted_cash must be a non-negative decimal"
  else .lock (.recon id) <| .query (.submitRecon id counted) fun
    | .error _ => internalError
    | .ok none => refuse 409 "reconciliation is not in a submittable state"
    | .ok (some c) => commit (.recon c)

/-- A line of an amount on a system account; `isZeroMoney` amounts get none. -/
def moneyLine (systemKey : String) (debit credit : Money) (station : Uuid) :
    List PostLine :=
  if debit = 0 ∧ credit = 0 then [] else [Accounting.unitLine systemKey debit credit (some station)]

/-- The lines of an approved reconciliation. -/
def CashPosting.lines (p : CashPosting) : List PostLine :=
  moneyLine "cash_on_hand" p.counted 0 p.stationId ++
    moneyLine "sales_clearing" 0 p.expected p.stationId ++
    moneyLine "cash_over_short" p.shortAmount 0 p.stationId ++
    moneyLine "cash_over_short" 0 p.overAmount p.stationId

/-- The entry of an approved reconciliation. -/
def reconEntry (actor id : Uuid) (p : CashPosting) : PostEntryInput where
  entryDate := p.businessDate
  sourceType := "cash_reconciliation"
  sourceId := some id
  stationId := some p.stationId
  postedBy := actor
  lines := p.lines

/-- What the approval does once the reconciliation is known to be submitted and locked. -/
def approveRecon (actor id : Uuid) (now : ℤ) (p : CashPosting) : Txn env :=
  if p.lines = [] then refuse 422 "nothing to post: counted and expected cash are both zero"
  else post (reconEntry actor id p) now fun e ↦
    .lock (.recon id) <| .query (.markPosted id actor e.entry.id) fun
      | none => internalError
      | some c => commit (.recon c)

def handleApproveCashReconciliation (actor id : Uuid) (now : ℤ) : Txn env :=
  .query (.postingFor id) fun
    | none => refuse 404 "cash reconciliation not found"
    | some p =>
      if p.status ≠ .submitted then
        refuse 409 "reconciliation must be submitted before approval"
      else .lock (.recon id) <| .query (.createdBy id) fun
        | none => internalError
        | some createdBy =>
          if createdBy = actor then
            refuse 403
              "separation of duties: you cannot approve a cash reconciliation you submitted"
          else approveRecon env actor id now p

/-! ## Bank deposits -/

structure LineRequest where
  reconId : Uuid
  amount : Numeric
  deriving DecidableEq

/-- The body of `handleCreateBankDeposit`. A nil id is `none`, and so is the date when it is not
given; `badDate` says that it does not parse. -/
structure DepositRequest where
  actor : Uuid
  stationId : Option Uuid
  bankAccountId : Option Uuid
  badDate : Bool
  expectedBankDate : Option ℤ
  lines : List LineRequest
  deriving DecidableEq

/-- The loop over the lines. -/
def addDepositLines (deposit : Uuid) : List LineRequest → Txn env
  | [] => commit (.deposit deposit)
  | ln :: lns =>
    if !env.positive ln.amount then refuse 400 "deposit line amounts must be positive decimals"
    else .lock (.depositOfRecon ln.reconId) <|
      .query (.insertDepositLine deposit ln.reconId ln.amount) fun
        | .error .uniqueViolation => refuse 409 "a cash reconciliation has already been deposited"
        | .error .foreignKeyViolation => refuse 400 "unknown cash reconciliation"
        | .error _ => internalError
        | .ok _ => addDepositLines deposit lns

def handleCreateBankDeposit (req : DepositRequest) : Txn env :=
  match req.stationId, req.bankAccountId with
  | some stationId, some bankAccountId =>
    if req.lines = [] then
      refuse 400 "station_id, bank_account_id, and at least one line are required"
    else if req.badDate then refuse 400 "expected_bank_date must be YYYY-MM-DD"
    else .query (.insertDeposit {
          stationId
          bankAccountId
          expectedBankDate := req.expectedBankDate
          createdBy := req.actor }) fun
        | .error .foreignKeyViolation => refuse 400 "unknown station or bank account"
        | .error _ => internalError
        | .ok d => addDepositLines env d.id req.lines
  | _, _ => refuse 400 "station_id, bank_account_id, and at least one line are required"

/-- The entry of a deposit: an amount moves from one system account to another. -/
def depositEntry (actor id station : Uuid) (date : ℤ) (debit credit : String) (amount : Money) :
    PostEntryInput where
  entryDate := date
  sourceType := "bank_deposit"
  sourceId := some id
  stationId := some station
  postedBy := actor
  lines := amountPair debit credit amount (some station)

/-- `handlePrepareBankDeposit`. The deposit is read before the transaction begins, for its station
and its date, which is the present one when none is given. -/
def handlePrepareBankDeposit (actor id : Uuid) (today now : ℤ) : Txn env :=
  .query (.getDeposit id) fun
    | none => refuse 404 "deposit not found"
    | some dep => .lock (.deposit id) <| .query (.prepareDeposit id) fun
      | .error _ => internalError
      | .ok none => refuse 409 "deposit is not in draft state"
      | .ok (some d) =>
        if d.amount = 0 then refuse 422 "deposit has no amount to prepare"
        else post (depositEntry actor id dep.stationId (dep.expectedBankDate.getD today)
            "bank_clearing" "cash_on_hand" d.amount) now fun e ↦
          .query (.setPreparedEntry id e.entry.id) fun _ ↦ commit (.deposit id)

/-- `handleConfirmBankDeposit`; a date that does not parse is `none`. -/
def handleConfirmBankDeposit (actor id : Uuid) (actualBankDate : Option ℤ) (now : ℤ) : Txn env :=
  match actualBankDate with
  | none => refuse 400 "actual_bank_date must be YYYY-MM-DD"
  | some actual => .query (.getDeposit id) fun
    | none => refuse 404 "deposit not found"
    | some dep => .lock (.deposit id) <| .query (.confirmDeposit id actual) fun
      | none => refuse 409 "deposit must be prepared before confirmation"
      | some d => post (depositEntry actor id dep.stationId actual "bank" "bank_clearing"
            d.amount) now fun e ↦
          .query (.setConfirmedEntry id e.entry.id) fun _ ↦ commit (.deposit id)

inductive BankingOp where
  | createRecon (actor station : Uuid) (day : Option Uuid) (payments : List Tender)
  | submitRecon (actor id : Uuid) (counted : Numeric)
  | approveRecon (actor id : Uuid) (now : ℤ)
  | createDeposit (req : DepositRequest)
  | prepareDeposit (actor id : Uuid) (today now : ℤ)
  | confirmDeposit (actor id : Uuid) (actualBankDate : Option ℤ) (now : ℤ)
  deriving DecidableEq

/-- The transaction of a request. Who submits a count is not recorded. -/
def BankingOp.prog : BankingOp → Txn env
  | .createRecon actor station day payments =>
    handleCreateCashReconciliation env actor station day payments
  | .submitRecon _ id counted => handleSubmitCashReconciliation env id counted
  | .approveRecon actor id now => handleApproveCashReconciliation env actor id now
  | .createDeposit req => handleCreateBankDeposit env req
  | .prepareDeposit actor id today now => handlePrepareBankDeposit env actor id today now
  | .confirmDeposit actor id actualBankDate now =>
    handleConfirmBankDeposit env actor id actualBankDate now

end FuelGrid.Banking
