import FuelGrid.Credit.Schema

/-!
# Charges, payments and authorizations

The functions that change a customer's exposure, each as the transaction it runs in.

`PostCharge` and `RequestAuthorization` enforce one limit in two ways. The charge locks the
customer and sums the exposure in one statement, so the sums are those of the snapshot from before
the lock was granted. The authorization locks first and reads the position in a later statement.
-/

namespace FuelGrid.Credit

open Sql

variable (env : Env)

abbrev Txn := Prog (schema env)

/-- Answer with the charge. No row means that it was over the limit. -/
def answerCharge : Except PgError (Option AREntry) → Txn env
  | .error e => .rollback (.pg e)
  | .ok none => .rollback .errCreditLimit
  | .ok (some e) => .commit (.entry e)

def postCharge (customer : Uuid) (amount : Numeric) (allowOverLimit : Bool) : Txn env :=
  .query (.chargeSnapshot customer) fun
    | none => .rollback .errNotFound
    | some (arBalance, authHeld) =>
      .lock (.customer customer) <| .query (.lockedCustomer customer) fun
        | none => .rollback .errNotFound
        | some c =>
          if c.onHold then .rollback .errCreditHold
          else .query (.insertCharge {
              customerId := customer
              amount
              allowOverLimit
              arBalance
              authHeld
              creditLimit := c.creditLimit }) (answerCharge env)

/-- An amount that passes the handlers' check: it parses and is not at most zero. -/
structure PositiveAmount where
  val : Numeric
  not_le_zero : ¬val ≤ .finite 0

def postPayment (customer : Uuid) (amount : PositiveAmount) : Txn env :=
  .query (.insertPayment customer amount.val) fun
    | .error e => .rollback (.pg e)
    | .ok e => .commit (.entry e)

/-- Log the denial and commit. When the denial cannot be stored the statement's error is ignored,
and the commit of the failed transaction rolls it back. -/
def deny (input : AuthRequest) (ruleCode detail : String) : Txn env :=
  match input.requestedAmount.store 14 2 with
  | some _ => .commit (.denied ⟨ruleCode, detail⟩)
  | none => .rollback .aborted

def answerAuthorization : Except PgError Authorization → Txn env
  | .error e => .rollback (.pg e)
  | .ok a => .commit (.authorization a)

def approve (input : AuthRequest) (now expiry : ℤ) : Txn env :=
  .query (.insertAuthorization input now expiry) (answerAuthorization env)

def Period.limitCode : Period → String
  | .transaction => "transaction_limit"
  | .day => "daily_limit"
  | .week => "weekly_limit"
  | .month => "monthly_limit"

def checkCredit (input : AuthRequest) (now expiry : ℤ) (pos : CreditPosition) : Txn env :=
  if input.requestedAmount ≤ .ofUnits 2 pos.available then
    .query (.violatedPeriod input now) fun
      | some period =>
        deny env input period.limitCode s!"requested amount exceeds the {period.text} limit"
      | none => approve env input now expiry
  else deny env input "insufficient_credit" "requested amount exceeds available credit"

/-- The decision of `RequestAuthorization`, once the position is known. -/
def decideAuthorization (input : AuthRequest) (now expiry : ℤ) (override : Bool)
    (pos : CreditPosition) : Txn env :=
  if override then approve env input now expiry
  else if pos.status = .suspended ∨ pos.status = .closed then
    deny env input "account_status" s!"account is {pos.status.text}"
  else if pos.hold then deny env input "account_hold" "customer account is on hold"
  else match input.credentialId with
    | none => checkCredit env input now expiry pos
    | some id => .query (.credentialStatus id) fun
      | none => checkCredit env input now expiry pos
      | some status =>
        if status ≠ .active then
          deny env input "credential_status" s!"credential is {status.text}"
        else checkCredit env input now expiry pos

/-- Lock the rows of an update one after the other. -/
def lockAll (ids : List Uuid) (next : Txn env) : Txn env :=
  ids.foldr (fun id next ↦ .lock (.authorization id) next) next

/-- `RequestAuthorization` after the customer is locked: release the expired holds, then decide on
the position that is left. -/
def authorize (input : AuthRequest) (now expiry : ℤ) (override : Bool) : Txn env :=
  .query (.findExpired input.customerId now) fun ids ↦
    lockAll env ids <| .query (.expire ids now) fun _ ↦
      .query (.creditPosition input.customerId now) fun
        | none => .commit (.denied ⟨"unknown_customer", ""⟩)
        | some pos => decideAuthorization env input now expiry override pos

/-- `RequestAuthorization`. The hold expires an hour after the application's clock, which is not
the transaction's `now()`. -/
def requestAuthorization (input : AuthRequest) (now clock : ℤ) (override : Bool) : Txn env :=
  let expiry := clock + 3600000000
  .query (.customerExists input.customerId) fun found ↦
    if found then .lock (.customer input.customerId) (authorize env input now expiry override)
    else authorize env input now expiry override

def fulfillAuthorization (id sale : Uuid) : Txn env :=
  .query (.saleExists sale) fun saleExists ↦
    if saleExists then
      .query (.findAuthorization id [.approved] true) fun found ↦
        if found then
          .lock (.authorization id) <| .query (.fulfill id sale) fun
            | .error .uniqueViolation => .rollback .errConsumed
            | .error e => .rollback (.pg e)
            | .ok none => .rollback .errConsumed
            | .ok (some a) => .commit (.authorization a)
        else .rollback .errConsumed
    else .rollback .errSaleNotFound

def setAuthorizationStatus (id : Uuid) (closing : Closing) : Txn env :=
  .query (.findAuthorization id closing.sources false) fun found ↦
    if found then
      .lock (.authorization id) <| .query (.close id closing) fun
        | none => .rollback .errBadState
        | some a => .commit (.authorization a)
    else .rollback .errBadState

/-- `UpdateCustomer`, as far as it changes the limit. -/
def updateCreditLimit (customer : Uuid) (limit : Numeric) : Txn env :=
  .query (.customerExists customer) fun found ↦
    if found then
      .lock (.customer customer) <| .query (.setCreditLimit customer limit) fun
        | .error e => .rollback (.pg e)
        | .ok none => .rollback .errNotFound
        | .ok (some c) => .commit (.customer c)
    else .rollback .errNotFound

end FuelGrid.Credit
