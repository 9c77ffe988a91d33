import FuelGrid.Governance.Schema

/-!
# Policies, requests and decisions

The handlers of `enterprise_governance_handlers.go` for the approval engine, each as its
transaction. The body checks before `Begin` come first in the program.
-/

namespace FuelGrid.Governance

open Sql

/-- The user of a request, as authenticated. -/
structure Actor where
  userId : Uuid
  /-- The middleware finds the permission `approval_request.decide`. -/
  mayDecide : Bool
  roles : List String

/-- The requests. A `status` or `decision` that is not one of the two values is `none`. -/
inductive Op where
  | createPolicy (input : PolicyInput)
  | simulate (workflowType : String) (amount : Option Numeric)
  | updatePolicy (id : Uuid) (input : PolicyInput)
  | setPolicyStatus (id : Uuid) (status : Option PolicyStatus)
  | raiseRequest (actor : Actor) (workflowType : String) (amount : Option Numeric)
  | decide (actor : Actor) (id : Uuid) (decision : Option Quorum.Ballot)

variable (env : Env)

/-- A transaction on the tables of the approval engine. -/
abbrev Txn := Prog (schema env)

def policyNotFound : Txn env := refuse 404 "approval policy not found"

def requestNotFound : Txn env := refuse 404 "approval request not found"

/-- The body check that most of the handlers share. -/
def requireWorkflow (workflowType : String) (next : Txn env) : Txn env :=
  if workflowType = "" then refuse 400 "workflow_type is required" else next

/-- `handleCreateApprovalPolicy` -/
def createPolicyTxn (input : PolicyInput) : Txn env :=
  requireWorkflow env input.workflowType <|
    .query (.insertPolicy input) fun
      | .error _ => internalError
      | .ok p => .commit (.policy p)

/-- `handleSimulateApprovalPolicy` -/
def simulateTxn (workflowType : String) (amount : Option Numeric) : Txn env :=
  requireWorkflow env workflowType <|
    .query (.resolvePolicy workflowType amount) fun r ↦ .commit (.resolution r)

/-- `handleUpdateApprovalPolicy` -/
def updatePolicyTxn (id : Uuid) (input : PolicyInput) : Txn env :=
  requireWorkflow env input.workflowType <|
    .query (.getPolicy id) fun
      | none => policyNotFound env
      | some _ => .lock (.policy id) <| .query (.updatePolicy id input) fun
        | .error _ => internalError
        | .ok none => policyNotFound env
        | .ok (some p) => .commit (.policy p)

/-- `handleSetApprovalPolicyStatus` -/
def setPolicyStatusTxn (id : Uuid) : Option PolicyStatus → Txn env
  | none => refuse 400 "status must be active|archived"
  | some status => .query (.getPolicy id) fun
    | none => policyNotFound env
    | some _ => .lock (.policy id) <| .query (.setPolicyStatus id status) fun
      | none => policyNotFound env
      | some p => .commit (.policy p)

/-! ## Requests

`handleDecideApproval` stands behind the permission `approval_request.decide`, which the middleware
looks up for each request, so whether an actor has it and which roles they hold is part of the
request. -/

/-- `RaiseRequest`: of the resolution it keeps the number of approvals. -/
def raiseResolved (actor : Actor) (workflowType : String) (amount : Option Numeric)
    (resolved : PolicyResolution) : Txn env :=
  .query (.insertRequest workflowType amount resolved.requiredApprovals actor.userId) fun
    | .error _ => internalError
    | .ok a => .commit (.request a)

/-- `handleRaiseApprovalRequest` -/
def raiseRequestTxn (actor : Actor) (workflowType : String) (amount : Option Numeric) : Txn env :=
  requireWorkflow env workflowType <|
    .query (.resolvePolicy workflowType amount) (raiseResolved env actor workflowType amount)

/-- What `Decide` does after its checks. -/
def recordDecision (actor : Actor) (id : Uuid) (decision : Quorum.Ballot) : Txn env :=
  .query (.insertDecision id decision actor.userId) fun
    | .error .uniqueViolation => refuse 409 "you have already decided this request"
    | .error _ => internalError
    | .ok _ => .query (.advanceRequest id decision) fun
      | .error _ => internalError
      | .ok none => internalError
      | .ok (some a) => .commit (.request a)

/-- `Decide`, with the answers of its handler. -/
def decideRequest (actor : Actor) (id : Uuid) (decision : Quorum.Ballot) : Txn env :=
  .query (.findRequest id) fun
    | false => requestNotFound env
    | true => .lock (.request id) <| .query (.lockedRequest id) fun
      | none => requestNotFound env
      | some a =>
        if a.status ≠ .requested then refuse 409 "request is no longer pending"
        else if a.requestedBy = actor.userId then
          refuse 403 "separation of duties: you cannot decide an approval request you raised"
        else recordDecision env actor id decision

/-- `handleDecideApproval`, behind the middleware of its route. -/
def decideTxn (actor : Actor) (id : Uuid) (decision : Option Quorum.Ballot) : Txn env :=
  if actor.mayDecide then
    match decision with
    | none => refuse 400 "decision must be approve|reject"
    | some decision => decideRequest env actor id decision
  else refuse 403 "forbidden"

/-- The transaction of a request. -/
def Op.txn : Op → Txn env
  | .createPolicy input => createPolicyTxn env input
  | .simulate workflowType amount => simulateTxn env workflowType amount
  | .updatePolicy id input => updatePolicyTxn env id input
  | .setPolicyStatus id status => setPolicyStatusTxn env id status
  | .raiseRequest actor workflowType amount => raiseRequestTxn env actor workflowType amount
  | .decide actor id decision => decideTxn env actor id decision

end FuelGrid.Governance
