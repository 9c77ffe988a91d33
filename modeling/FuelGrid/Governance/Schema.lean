import FuelGrid.Quorum.Tally
import FuelGrid.Sql.Numeric
import FuelGrid.Sql.Provenance
import FuelGrid.Sql.Refusals
import Mathlib.Data.List.MinMax
import Mathlib.Data.Prod.Lex

/-!
# The approval engine: tables and statements

The policies, requests and decisions of `internal/enterprise/governance.go` and the SQL statements
on them. One tenant's rows are modelled. The engine is generic: a request names a workflow and an
amount, the policies say how many approvals that takes, and what is approved is not known here.
-/

namespace FuelGrid.Governance

open Sql

/-- The order of ids, which are random. -/
structure Env where
  rank : Uuid → ℕ

/-! ## Tables

Amounts of the columns are `numeric(14,2)` in cents, with `⊤` for `NaN`. The amount of a request
arrives as a text, which is compared with the policies unrounded and then rounded into its column.
-/

inductive PolicyStatus where
  | active | archived
  deriving DecidableEq

/-- A row of `approval_policies`. -/
structure Policy where
  id : Uuid
  workflowType : String
  minAmount : Money
  requiredApprovals : ℕ
  requiredRole : Option String
  status : PolicyStatus
  /-- `chk_approval_required` -/
  required_pos : 1 ≤ requiredApprovals
  deriving DecidableEq

inductive RequestStatus where
  | requested | approved | rejected | cancelled | expired
  deriving DecidableEq

/-- A row of `approval_requests`. -/
structure ApprovalRequest where
  id : Uuid
  workflowType : String
  amount : Money
  requiredApprovals : ℕ
  approvalsCount : ℕ
  status : RequestStatus
  requestedBy : Uuid
  deriving DecidableEq

/-- A row of `approval_decisions`. -/
structure ApprovalDecision where
  id : Uuid
  requestId : Uuid
  decision : Quorum.Ballot
  decidedBy : Uuid
  deriving DecidableEq

structure GovernanceDb where
  policies : List Policy
  requests : List ApprovalRequest
  decisions : List ApprovalDecision

/-! ## Statements -/

inductive PgError where
  | numericOverflow | integerOutOfRange | foreignKeyViolation | uniqueViolation

/-- What a column of type `integer` holds at most. -/
def maxInteger : ℕ := 2 ^ 31 - 1

/-- What `CreatePolicy` and `UpdatePolicy` are given. An empty `min_amount` is `none`. -/
structure PolicyInput where
  workflowType : String
  minAmount : Option Numeric
  requiredApprovals : ℤ
  requiredRole : Option String

/-- Less than one approval is taken as one. -/
def PolicyInput.clamped (input : PolicyInput) : ℕ :=
  if input.requiredApprovals < 1 then 1 else input.requiredApprovals.toNat

theorem PolicyInput.clamped_pos (input : PolicyInput) : 1 ≤ input.clamped := by
  unfold clamped
  split <;> omega

/-- The row that the rule of a policy is written to. -/
def PolicyInput.row (input : PolicyInput) (id : Uuid) (status : PolicyStatus) :
    Except PgError Policy :=
  match (input.minAmount.getD (.finite 0)).store 14 2 with
  | none => .error .numericOverflow
  | some minAmount =>
    if input.clamped ≤ maxInteger then
      .ok {
        id
        workflowType := input.workflowType
        minAmount
        requiredApprovals := input.clamped
        requiredRole := input.requiredRole
        status
        required_pos := input.clamped_pos }
    else .error .integerOutOfRange

/-- The update of `UpdatePolicy`, which leaves the status alone. -/
def updatePolicy (db : GovernanceDb) (id : Uuid) (input : PolicyInput) :
    Except PgError (Option Policy) :=
  match db.policies.find? (·.id = id) with
  | none => .ok none
  | some p => (input.row id p.status).map some

/-- The update of `SetPolicyStatus`. -/
def setPolicyStatus (db : GovernanceDb) (id : Uuid) (status : PolicyStatus) : Option Policy :=
  (db.policies.find? (·.id = id)).map fun p ↦ { p with status }

/-- The policy is one for this workflow and amount. -/
def Policy.Applies (p : Policy) (workflowType : String) (amount : Numeric) : Prop :=
  p.status = .active ∧ p.workflowType = workflowType ∧ .ofUnits 2 p.minAmount ≤ amount
  deriving Decidable

structure PolicyResolution where
  isMatched : Bool
  requiredApprovals : ℕ
  requiredRole : Option String
  policyId : Option Uuid

section Resolve

variable (env : Env)

/-- `ORDER BY required_approvals DESC, min_amount DESC, id` -/
def Policy.strictness (p : Policy) : ℕ ×ₗ Money ×ₗ ℕᵒᵈ :=
  toLex (p.requiredApprovals, toLex (p.minAmount, OrderDual.toDual (env.rank p.id)))

/-- `resolvePolicy`. An empty amount is `none`. -/
def resolvePolicy (policies : List Policy) (workflowType : String) (amount : Option Numeric) :
    PolicyResolution :=
  match (policies.filter (·.Applies workflowType (amount.getD (.finite 0)))).argmax
      (·.strictness env) with
  | none => ⟨false, 1, none, none⟩
  | some p => ⟨true, p.requiredApprovals, p.requiredRole, some p.id⟩

end Resolve

/-- The insert of `RaiseRequest`. -/
def insertRequest (n : ℕ) (workflowType : String) (amount : Option Numeric) (required : ℕ)
    (requestedBy : Uuid) : Except PgError ApprovalRequest :=
  match (amount.getD (.finite 0)).store 14 2 with
  | none => .error .numericOverflow
  | some amount => .ok {
      id := n
      workflowType
      amount
      requiredApprovals := required
      approvalsCount := 0
      status := .requested
      requestedBy }

/-- The insert of `Decide`. -/
def insertDecision (db : GovernanceDb) (n : ℕ) (requestId : Uuid) (decision : Quorum.Ballot)
    (decidedBy : Uuid) : Except PgError ApprovalDecision :=
  -- uq_approval_decision_one
  if ∃ d ∈ db.decisions, d.requestId = requestId ∧ d.decidedBy = decidedBy then
    .error .uniqueViolation
  -- approval_decision_request_fk
  else if ∃ a ∈ db.requests, a.id = requestId then .ok ⟨n, requestId, decision, decidedBy⟩
  else .error .foreignKeyViolation

/-- The update of `Decide` for a reject. -/
def ApprovalRequest.reject (a : ApprovalRequest) : ApprovalRequest := { a with status := .rejected }

/-- The update of `Decide` for an approve. -/
def ApprovalRequest.approve (a : ApprovalRequest) : ApprovalRequest :=
  { a with
    approvalsCount := a.approvalsCount + 1
    status := if a.requiredApprovals ≤ a.approvalsCount + 1 then .approved else .requested }

/-- The two updates of `Decide`, as one statement with the decision as its parameter. -/
def advanceRequest (db : GovernanceDb) (id : Uuid) :
    Quorum.Ballot → Except PgError (Option ApprovalRequest)
  | .reject => .ok ((db.requests.find? (·.id = id)).map (·.reject))
  | .approve =>
    match db.requests.find? (·.id = id) with
    | none => .ok none
    | some a =>
      if a.approvalsCount + 1 ≤ maxInteger then .ok (some a.approve) else .error .integerOutOfRange

/-- The statements. `getPolicy` is a read on another connection; `findRequest` and `lockedRequest`
are the two halves of `requestForUpdate`, before and after the wait for the row. -/
inductive Query where
  | insertPolicy (input : PolicyInput)
  | getPolicy (id : Uuid)
  | updatePolicy (id : Uuid) (input : PolicyInput)
  | setPolicyStatus (id : Uuid) (status : PolicyStatus)
  | resolvePolicy (workflowType : String) (amount : Option Numeric)
  | insertRequest (workflowType : String) (amount : Option Numeric) (required : ℕ)
    (requestedBy : Uuid)
  | findRequest (id : Uuid)
  | lockedRequest (id : Uuid)
  | insertDecision (requestId : Uuid) (decision : Quorum.Ballot) (decidedBy : Uuid)
  | advanceRequest (id : Uuid) (decision : Quorum.Ballot)

abbrev Reply : Query → Type
  | .insertPolicy _ => Except PgError Policy
  | .getPolicy _ => Option Policy
  | .updatePolicy _ _ => Except PgError (Option Policy)
  | .setPolicyStatus _ _ => Option Policy
  | .resolvePolicy _ _ => PolicyResolution
  | .insertRequest _ _ _ _ => Except PgError ApprovalRequest
  | .findRequest _ => Bool
  | .lockedRequest _ => Option ApprovalRequest
  | .insertDecision _ _ _ => Except PgError ApprovalDecision
  | .advanceRequest _ _ => Except PgError (Option ApprovalRequest)

inductive Write where
  | insertPolicy (p : Policy)
  | setPolicy (p : Policy)
  | insertRequest (a : ApprovalRequest)
  | setRequest (a : ApprovalRequest)
  | insertDecision (d : ApprovalDecision)
  deriving DecidableEq

def GovernanceDb.apply (db : GovernanceDb) : Write → GovernanceDb
  | .insertPolicy p => { db with policies := db.policies ++ [p] }
  | .setPolicy p => { db with policies := db.policies.map fun x ↦ if x.id = p.id then p else x }
  | .insertRequest a => { db with requests := db.requests ++ [a] }
  | .setRequest a => { db with requests := db.requests.map fun x ↦ if x.id = a.id then a else x }
  | .insertDecision d => { db with decisions := db.decisions ++ [d] }

variable (env : Env)

def exec : (q : Query) → (committed view : GovernanceDb) → ℕ → List Write × Reply q
  | .insertPolicy input, _, _, n => logged .insertPolicy (input.row n .active)
  | .getPolicy id, committed, _, _ => ([], committed.policies.find? (·.id = id))
  | .updatePolicy id input, _, db, _ =>
    loggedRow .setPolicy (updatePolicy db id input)
  | .setPolicyStatus id status, _, db, _ =>
    (((setPolicyStatus db id status).map .setPolicy).toList, setPolicyStatus db id status)
  | .resolvePolicy workflowType amount, _, db, _ =>
    ([], resolvePolicy env db.policies workflowType amount)
  | .insertRequest workflowType amount required requestedBy, _, _, n =>
    logged .insertRequest (insertRequest n workflowType amount required requestedBy)
  | .findRequest id, _, db, _ => ([], decide (∃ a ∈ db.requests, a.id = id))
  | .lockedRequest id, _, db, _ => ([], db.requests.find? (·.id = id))
  | .insertDecision requestId decision decidedBy, _, db, n =>
    logged .insertDecision (insertDecision db n requestId decision decidedBy)
  | .advanceRequest id decision, _, db, _ =>
    loggedRow .setRequest (advanceRequest db id decision)

inductive LockKey where
  | policy (id : Uuid)
  | request (id : Uuid)
  deriving DecidableEq

inductive GovernanceResult where
  | policy (p : Policy)
  | resolution (r : PolicyResolution)
  | request (a : ApprovalRequest)

@[reducible] def schema : Schema where
  Db := GovernanceDb
  Write := Write
  Query := Query
  Reply := Reply
  Key := LockKey
  Result := GovernanceResult
  Error := HttpError
  apply := GovernanceDb.apply
  exec := exec env

instance : Refusals (schema env) := ⟨.http⟩

end FuelGrid.Governance
