import FuelGrid.Sql.Numeric
import FuelGrid.Sql.Txn

/-!
# Receivables and fuel authorizations

The tables and the SQL statements behind a customer's credit: the receivables ledger of
`internal/receivables/repo.go`, the fuel authorizations of `internal/fleet/authorizations.go` and
the credit position of `internal/fleet/credit_profiles.go`, as a `Sql.Schema`. One tenant's rows are
modelled.
-/

namespace FuelGrid.Credit

open Sql

/-! ## Tables

Money columns are `numeric(14,2)` and are held in cents, with `⊤` for `NaN`: the handlers check
amounts by parsing them as floats, and `NaN` passes every such check. -/

inductive CustomerStatus where
  | prospect | active | onHold | suspended | closed | inactive | deleted
  deriving DecidableEq

def CustomerStatus.text : CustomerStatus → String
  | .prospect => "prospect"
  | .active => "active"
  | .onHold => "on_hold"
  | .suspended => "suspended"
  | .closed => "closed"
  | .inactive => "inactive"
  | .deleted => "deleted"

/-- A row of `customers`, with the manual hold of its `customer_credit_profiles` row. -/
structure Customer where
  creditLimit : Money
  status : CustomerStatus
  /-- `COALESCE(p.hold, false)` -/
  hold : Bool

/-- The hard stop of a manual hold or of the account's status. -/
def Customer.onHold (c : Customer) : Bool :=
  c.hold || c.status = .onHold || c.status = .suspended

inductive EntryType where
  | charge | payment | adjustment
  deriving DecidableEq

/-- A row of `ar_entries`. -/
structure AREntry where
  id : Uuid
  customerId : Uuid
  entryType : EntryType
  amount : Money
  balanceAfter : Money

inductive AuthStatus where
  | requested | approved | fulfilled | expired | cancelled | voided
  deriving DecidableEq

/-- A row of `fuel_authorizations`. -/
structure Authorization where
  id : Uuid
  customerId : Uuid
  vehicleId : Option Uuid
  productId : Option Uuid
  requestedAmount : Money
  approvedAmount : Money
  status : AuthStatus
  expiryAt : Option ℤ
  consumedBy : Option Uuid
  createdAt : ℤ

inductive Period where
  | transaction | day | week | month
  deriving DecidableEq

def Period.text : Period → String
  | .transaction => "transaction"
  | .day => "day"
  | .week => "week"
  | .month => "month"

/-- A row of `fuel_limits`. -/
structure FuelLimit where
  customerId : Option Uuid
  vehicleId : Option Uuid
  productId : Option Uuid
  period : Period
  maxAmount : Option Money

inductive CredentialStatus where
  | issued | active | suspended | expired | revoked
  deriving DecidableEq

def CredentialStatus.text : CredentialStatus → String
  | .issued => "issued"
  | .active => "active"
  | .suspended => "suspended"
  | .expired => "expired"
  | .revoked => "revoked"

structure CreditDb where
  customer : Uuid → Option Customer
  entries : List AREntry
  authorizations : List Authorization
  limits : List FuelLimit
  /-- `fuel_credentials.status` -/
  credential : Uuid → Option CredentialStatus
  /-- The ids of the recognized sales. -/
  sales : List Uuid

/-- What the statements leave open. -/
structure Env where
  /-- `date_trunc(period, now)` -/
  dateTrunc : Period → ℤ → ℤ

/-- The authorization has not expired at the instant `now`. -/
def live (now : ℤ) (a : Authorization) : Bool := a.expiryAt.all (now < ·)

namespace CreditDb

/-- What the customer owes: the sum of the receivables. -/
def arBalance (db : CreditDb) (customer : Uuid) : Money :=
  ((db.entries.filter (·.customerId = customer)).map (·.amount)).sum

/-- The approved holds of the customer among the authorizations that satisfy `p`. -/
def held (db : CreditDb) (customer : Uuid) (p : Authorization → Bool) : Money :=
  ((db.authorizations.filter fun a ↦
    a.customerId = customer ∧ a.status = .approved ∧ p a).map (·.approvedAmount)).sum

/-- The balance plus those holds. -/
def exposure (db : CreditDb) (customer : Uuid) (p : Authorization → Bool) : Money :=
  db.arBalance customer + db.held customer p

/-- The holds that have expired and that no request has released yet. -/
def unreleased (db : CreditDb) (customer : Uuid) (now : ℤ) : Money :=
  db.held customer fun a ↦ !live now a

theorem exposure_eq_live_add (db : CreditDb) (customer : Uuid) (now : ℤ) :
    db.exposure customer (fun _ ↦ true) =
      db.exposure customer (live now) + db.unreleased customer now := by
  have hsplit := List.filter_append_perm (live now)
    (db.authorizations.filter fun a ↦ a.customerId = customer ∧ a.status = .approved)
  rw [exposure, exposure, unreleased, add_assoc, held, held, held]
  congr 1
  rw [← List.sum_append, ← List.map_append]
  simpa [List.filter_filter, Bool.and_comm, Bool.and_left_comm, Bool.and_assoc] using
    (hsplit.map (·.approvedAmount)).sum_eq.symm

end CreditDb

/-! ## Statements

Instants are integers. `now()` is the start of the transaction, so it is an argument of the
statements that use it; `date_trunc` in the session's time zone is the parameter `Env`. -/

/-- The parameters of the insert of `PostCharge`: the last three are what its select returned. -/
structure ChargeInput where
  customerId : Uuid
  amount : Numeric
  allowOverLimit : Bool
  arBalance : Money
  authHeld : Money
  creditLimit : Money

/-- `INSERT INTO ar_entries … SELECT … WHERE`: no row when the charge goes over the limit. -/
def insertCharge (n : ℕ) (input : ChargeInput) : Except PgError (Option AREntry) :=
  if input.allowOverLimit ∨ .ofUnits 2 input.arBalance + .ofUnits 2 input.authHeld + input.amount
      ≤ .ofUnits 2 input.creditLimit then
    match input.amount.store 14 2, (.ofUnits 2 input.arBalance + input.amount).store 14 2 with
    | some amount, some balanceAfter =>
      .ok (some ⟨n, input.customerId, .charge, amount, balanceAfter⟩)
    | _, _ => .error .numericOverflow
  else .ok none

/-- The insert of `PostPayment`. -/
def insertPayment (db : CreditDb) (n : ℕ) (customer : Uuid) (amount : Numeric) :
    Except PgError AREntry :=
  match (-amount).store 14 2, (.ofUnits 2 (db.arBalance customer) + -amount).store 14 2 with
  | some stored, some balanceAfter =>
    if (db.customer customer).isSome then .ok ⟨n, customer, .payment, stored, balanceAfter⟩
    else .error .foreignKeyViolation
  | _, _ => .error .numericOverflow

structure AuthRequest where
  customerId : Uuid
  vehicleId : Option Uuid
  credentialId : Option Uuid
  productId : Option Uuid
  requestedAmount : Numeric

/-- The insert of `RequestAuthorization`. -/
def insertAuthorization (db : CreditDb) (n : ℕ) (input : AuthRequest) (now expiry : ℤ) :
    Except PgError Authorization :=
  match input.requestedAmount.store 14 2 with
  | some amount =>
    if (db.customer input.customerId).isSome then
      .ok { id := n
            customerId := input.customerId
            vehicleId := input.vehicleId
            productId := input.productId
            requestedAmount := amount
            approvedAmount := amount
            status := .approved
            expiryAt := some expiry
            consumedBy := none
            createdAt := now }
    else .error .foreignKeyViolation
  | none => .error .numericOverflow

/-- A customer's credit standing. -/
structure CreditPosition where
  creditLimit : Money
  exposure : Money
  available : Money
  status : CustomerStatus
  hold : Bool

def creditPosition (db : CreditDb) (customer : Uuid) (now : ℤ) : Option CreditPosition :=
  (db.customer customer).map fun c ↦
    { creditLimit := c.creditLimit
      exposure := db.exposure customer (live now)
      available := c.creditLimit - db.arBalance customer - db.held customer (live now)
      status := c.status
      hold := c.onHold }

variable (env : Env) {e : AREntry} {c id : Uuid}

/-- The limit caps this request. -/
def FuelLimit.Applies (l : FuelLimit) (input : AuthRequest) : Prop :=
  (l.customerId = some input.customerId ∨ l.customerId = none) ∧
    (l.vehicleId = input.vehicleId ∨ l.vehicleId = none) ∧
    (l.productId = input.productId ∨ l.productId = none)
  deriving Decidable

/-- The live and consumed holds that count against a windowed limit. -/
def FuelLimit.used (l : FuelLimit) (db : CreditDb) (customer : Uuid) (now : ℤ) : Money :=
  ((db.authorizations.filter fun a ↦
    a.customerId = customer ∧ (a.status = .approved ∨ a.status = .fulfilled) ∧
      (l.vehicleId = none ∨ a.vehicleId = l.vehicleId) ∧
      (l.productId = none ∨ a.productId = l.productId) ∧
      env.dateTrunc l.period now ≤ a.createdAt).map (·.approvedAmount)).sum

def FuelLimit.Violated (l : FuelLimit) (db : CreditDb) (input : AuthRequest) (now : ℤ) : Prop :=
  match l.maxAmount, l.period with
  | none, _ => False
  | some maxAmount, .transaction => ¬input.requestedAmount ≤ .ofUnits 2 maxAmount
  | some maxAmount, _ =>
    ¬input.requestedAmount + .ofUnits 2 (l.used env db input.customerId now) ≤ .ofUnits 2 maxAmount

instance (l : FuelLimit) (db : CreditDb) (input : AuthRequest) (now : ℤ) :
    Decidable (l.Violated env db input now) :=
  match h : l.maxAmount, h' : l.period with
  | none, _ => .isFalse (by simp only [FuelLimit.Violated, h, not_false_eq_true])
  | some maxAmount, .transaction =>
    decidable_of_iff (¬input.requestedAmount ≤ .ofUnits 2 maxAmount)
      (by simp only [FuelLimit.Violated, h, h'])
  | some maxAmount, .day | some maxAmount, .week | some maxAmount, .month =>
    decidable_of_iff (¬input.requestedAmount + .ofUnits 2 (l.used env db input.customerId now)
      ≤ .ofUnits 2 maxAmount) (by simp only [FuelLimit.Violated, h, h'])

/-- The strictest period whose limit the request violates. -/
def violatedPeriod (db : CreditDb) (input : AuthRequest) (now : ℤ) : Option Period :=
  [.transaction, .day, .week, .month].find? fun period ↦
    ∃ l ∈ db.limits, l.period = period ∧ l.Applies input ∧ l.Violated env db input now

/-- The states `SetAuthorizationStatus` leads to. -/
inductive Closing where
  | cancelled | voided

/-- The states an authorization can be closed from. -/
def Closing.sources : Closing → List AuthStatus
  | .cancelled => [.requested, .approved]
  | .voided => [.approved, .fulfilled]

/-- The statements. A `FOR UPDATE` or an `UPDATE` of a row is two of them with a lock in between:
the row is found on the snapshot of the statement's start and read again under the lock. The
scalar subqueries of `PostCharge` belong to the first of its two. -/
inductive Query where
  | chargeSnapshot (customer : Uuid)
  | lockedCustomer (customer : Uuid)
  | insertCharge (input : ChargeInput)
  | insertPayment (customer : Uuid) (amount : Numeric)
  | customerExists (customer : Uuid)
  | findExpired (customer : Uuid) (now : ℤ)
  | expire (ids : List Uuid) (now : ℤ)
  | creditPosition (customer : Uuid) (now : ℤ)
  | credentialStatus (id : Uuid)
  | violatedPeriod (input : AuthRequest) (now : ℤ)
  | insertAuthorization (input : AuthRequest) (now expiry : ℤ)
  | saleExists (id : Uuid)
  | findAuthorization (id : Uuid) (statuses : List AuthStatus) (unconsumed : Bool)
  | fulfill (id sale : Uuid)
  | close (id : Uuid) (closing : Closing)
  | setCreditLimit (customer : Uuid) (limit : Numeric)

abbrev Reply : Query → Type
  | .chargeSnapshot _ => Option (Money × Money)
  | .lockedCustomer _ => Option Customer
  | .insertCharge _ => Except PgError (Option AREntry)
  | .insertPayment _ _ => Except PgError AREntry
  | .customerExists _ => Bool
  | .findExpired _ _ => List Uuid
  | .expire _ _ => Unit
  | .creditPosition _ _ => Option CreditPosition
  | .credentialStatus _ => Option CredentialStatus
  | .violatedPeriod _ _ => Option Period
  | .insertAuthorization _ _ _ => Except PgError Authorization
  | .saleExists _ => Bool
  | .findAuthorization _ _ _ => Bool
  | .fulfill _ _ => Except PgError (Option Authorization)
  | .close _ _ => Option Authorization
  | .setCreditLimit _ _ => Except PgError (Option Customer)

inductive Write where
  | insertEntry (e : AREntry)
  | insertAuthorization (a : Authorization)
  | setStatus (id : Uuid) (status : AuthStatus) (consumedBy : Option Uuid)
  | setCreditLimit (customer : Uuid) (limit : Money)

def Authorization.settle (id : Uuid) (status : AuthStatus) (consumedBy : Option Uuid)
    (a : Authorization) : Authorization :=
  if a.id = id then { a with status, consumedBy } else a

def CreditDb.apply (db : CreditDb) : Write → CreditDb
  | .insertEntry e => { db with entries := db.entries ++ [e] }
  | .insertAuthorization a => { db with authorizations := db.authorizations ++ [a] }
  | .setStatus id status consumedBy =>
    { db with authorizations := db.authorizations.map (Authorization.settle id status consumedBy) }
  | .setCreditLimit customer limit =>
    { db with customer := fun id ↦
        if id = customer then (db.customer id).map ({ · with creditLimit := limit })
        else db.customer id }

/-- Past its expiry at `now` and still approved. -/
def Authorization.Stale (a : Authorization) (now : ℤ) : Prop :=
  a.status = .approved ∧ ∃ t ∈ a.expiryAt, t < now
  deriving Decidable

/-- The customer's row, unless it is deleted. -/
def CreditDb.present (db : CreditDb) (customer : Uuid) : Option Customer :=
  (db.customer customer).filter (·.status ≠ .deleted)

/-- The consuming update of `FulfillAuthorization`; a sale consumes at most one authorization. -/
def fulfill (db : CreditDb) (id sale : Uuid) : Except PgError (Option Authorization) :=
  match db.authorizations.find? fun a ↦
      a.id = id ∧ a.status = .approved ∧ a.consumedBy = none with
  | none => .ok none
  | some a =>
    if ∃ a' ∈ db.authorizations, a'.consumedBy = some sale then .error .uniqueViolation
    else .ok (some (a.settle id .fulfilled (some sale)))

/-- The two updates of `SetAuthorizationStatus`. -/
def close (db : CreditDb) (id : Uuid) (closing : Closing) : Option Authorization :=
  (db.authorizations.find? fun a ↦ a.id = id ∧ a.status ∈ closing.sources).map fun a ↦
    match closing with
    | .cancelled => a.settle id .cancelled a.consumedBy
    | .voided => a.settle id .voided none

/-- The limit part of `UpdateCustomer`. -/
def setCreditLimit (db : CreditDb) (customer : Uuid) (limit : Numeric) :
    Except PgError (Option Customer) :=
  match db.present customer with
  | none => .ok none
  | some c =>
    match limit.store 14 2 with
    | none => .error .numericOverflow
    | some creditLimit =>
      -- chk_customers_limit
      if 0 ≤ creditLimit then .ok (some { c with creditLimit }) else .error .checkViolation

def exec : (q : Query) → (committed view : CreditDb) → ℕ → List Write × Reply q
  | .chargeSnapshot customer, _, db, _ =>
    ([], (db.present customer).map fun _ ↦
      (db.arBalance customer, db.held customer fun _ ↦ true))
  | .lockedCustomer customer, _, db, _ => ([], db.present customer)
  | .insertCharge input, _, _, n => loggedRow .insertEntry (insertCharge n input)
  | .insertPayment customer amount, _, db, n =>
    logged .insertEntry (insertPayment db n customer amount)
  | .customerExists customer, _, db, _ => ([], (db.customer customer).isSome)
  | .findExpired customer now, _, db, _ =>
    ([], (db.authorizations.filter fun a ↦ a.customerId = customer ∧ a.Stale now).map (·.id))
  | .expire ids now, _, db, _ =>
    ((db.authorizations.filter fun a ↦ a.id ∈ ids ∧ a.Stale now).map fun a ↦
      .setStatus a.id .expired a.consumedBy, ())
  | .creditPosition customer now, _, db, _ => ([], creditPosition db customer now)
  | .credentialStatus id, _, db, _ => ([], db.credential id)
  | .violatedPeriod input now, _, db, _ => ([], violatedPeriod env db input now)
  | .insertAuthorization input now expiry, _, db, n =>
    logged .insertAuthorization (insertAuthorization db n input now expiry)
  | .saleExists id, _, db, _ => ([], decide (id ∈ db.sales))
  | .findAuthorization id statuses unconsumed, _, db, _ =>
    ([], decide (∃ a ∈ db.authorizations, a.id = id ∧ a.status ∈ statuses ∧
      (unconsumed → a.consumedBy = none)))
  | .fulfill id sale, _, db, _ =>
    loggedRow (fun a ↦ .setStatus id a.status a.consumedBy) (fulfill db id sale)
  | .close id closing, _, db, _ =>
    (((close db id closing).map fun a ↦ .setStatus id a.status a.consumedBy).toList,
      close db id closing)
  | .setCreditLimit customer limit, _, db, _ =>
    loggedRow (fun c ↦ .setCreditLimit customer c.creditLimit) (setCreditLimit db customer limit)

/-- What a row lock is taken on. -/
inductive LockKey where
  | customer (id : Uuid)
  | authorization (id : Uuid)
  deriving DecidableEq

inductive CreditError where
  | errNotFound
  | errCreditHold
  | errCreditLimit
  | errSaleNotFound
  | errConsumed
  | errBadState
  /-- A failed statement was ignored, so the commit rolled back. -/
  | aborted
  | pg (e : PgError)

/-- The rule that denied a request. -/
structure AuthDecision where
  ruleCode : String
  detail : String

inductive CreditResult where
  | entry (e : AREntry)
  | authorization (a : Authorization)
  | denied (d : AuthDecision)
  | customer (c : Customer)

/-- The credit tables as a database for transactions. -/
@[reducible] def schema : Schema where
  Db := CreditDb
  Write := Write
  Query := Query
  Reply := Reply
  Key := LockKey
  Result := CreditResult
  Error := CreditError
  apply := CreditDb.apply
  exec := exec env

section Returns

variable {env} {db : CreditDb} {n : ℕ} {a : Authorization}

theorem insertCharge_eq_some {input : ChargeInput} (h : insertCharge n input = .ok (some e)) :
    (input.allowOverLimit ∨ .ofUnits 2 input.arBalance + .ofUnits 2 input.authHeld + input.amount
        ≤ ofUnits 2 input.creditLimit) ∧
      e.customerId = input.customerId ∧ e.entryType = .charge ∧
      input.amount.store 14 2 = some e.amount ∧
      (.ofUnits 2 input.arBalance + input.amount).store 14 2 = some e.balanceAfter := by
  unfold insertCharge at h
  split at h
  next hlim =>
    split at h
    next amount balance hamt hbal =>
      obtain rfl := some.inj (ok.inj h)
      exact ⟨hlim, rfl, rfl, hamt, hbal⟩
    · cases h
  · cases h

theorem insertPayment_eq_ok {amount : Numeric} (h : insertPayment db n c amount = .ok e) :
    e.customerId = c ∧ e.entryType = .payment ∧ (-amount).store 14 2 = some e.amount ∧
      (.ofUnits 2 (db.arBalance c) + -amount).store 14 2 = some e.balanceAfter := by
  unfold insertPayment at h
  split at h
  next stored balance hsd hbal =>
    split at h
    · obtain rfl := ok.inj h
      exact ⟨rfl, rfl, hsd, hbal⟩
    · cases h
  · cases h

theorem insertAuthorization_eq_ok {input : AuthRequest} {now expiry : ℤ}
    (h : insertAuthorization db n input now expiry = .ok a) :
    a.customerId = input.customerId ∧ a.createdAt = now ∧
      input.requestedAmount.store 14 2 = some a.approvedAmount ∧ a.status = .approved ∧
      a.id = n := by
  unfold insertAuthorization at h
  split at h
  next amount hamt =>
    split at h
    · obtain rfl := ok.inj h
      exact ⟨rfl, rfl, hamt, rfl, rfl⟩
    · cases h
  · cases h

theorem fulfill_eq_some {sale : Uuid} (h : fulfill db id sale = .ok (some a)) :
    ∃ a0 ∈ db.authorizations, a0.id = id ∧ a0.status = .approved ∧
      a = { a0 with status := .fulfilled, consumedBy := some sale } := by
  unfold fulfill at h
  split at h
  · cases h
  next a0 hfi =>
    split at h
    · cases h
    · obtain rfl := some.inj (ok.inj h)
      have hprop := find?_some hfi
      simp only [decide_eq_true_eq] at hprop
      refine ⟨a0, mem_of_find?_eq_some hfi, hprop.1, hprop.2.1, ?_⟩
      rw [Authorization.settle, if_pos hprop.1]

theorem close_eq_some {closing : Closing} (h : close db id closing = some a) :
    (∃ a0 ∈ db.authorizations, a0.id = id) ∧ a.id = id ∧
      (a.status = .cancelled ∨ a.status = .voided) := by
  obtain ⟨a0, hfi, rfl⟩ := map_eq_some_iff.mp h
  have hprop := find?_some hfi
  simp only [decide_eq_true_eq] at hprop
  refine ⟨⟨a0, mem_of_find?_eq_some hfi, hprop.1⟩, ?_⟩
  cases closing <;> simp [Authorization.settle, hprop.1]

theorem setCreditLimit_eq_some {limit : Numeric} {row : Customer}
    (h : setCreditLimit db c limit = .ok (some row)) : limit.store 14 2 = some row.creditLimit := by
  unfold setCreditLimit at h
  split at h
  · cases h
  · split at h
    · cases h
    next stored hsd =>
      split at h
      · obtain rfl := some.inj (ok.inj h)
        exact hsd
      · cases h

end Returns

end FuelGrid.Credit
