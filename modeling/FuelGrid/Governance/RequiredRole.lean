import FuelGrid.Governance.ApprovalEngine

/-!
# The required role of a policy

A policy can name a role, and `resolvePolicy` returns the role of the policy it selects together
with the number of approvals. `RaiseRequest` keeps the number and drops the role: a request has no
column for it, and neither `Decide` nor its handler asks for one. Whoever has the permission
`approval_request.decide` can approve, so the role is respected only where those who then approve
the request with that permission have it anyway (`roleLaw_of_rolesHeld`).
-/

namespace FuelGrid.Governance

open Sql Quorum

section Law

variable (env : Env) {T : Type} [DecidableEq T]

/-- The user who decides, if the request to the server is a decision. -/
def Op.decider? : Op → Option Actor
  | .decide actor _ _ => some actor
  | _ => none

/-- Who approves which request, if the request to the server does so. -/
def Op.approves? : Op → Option (Actor × Uuid)
  | .decide actor id (some .approve) => some (actor, id)
  | _ => none

/-- The workflow and the amount, if the request to the server raises an approval request. -/
def Op.raise? : Op → Option (String × Option Numeric)
  | .raiseRequest _ workflowType amount => some (workflowType, amount)
  | _ => none

/-- The decision was committed for a user who had the role. -/
def DecidedByHolder (ops : T → Op) (s : State (schema env) T)
    (d : ApprovalDecision) (role : String) :
    Prop :=
  ∃ c ∈ s.commits, .insertDecision d ∈ c.writes ∧
    ∃ decider ∈ (ops c.txn).decider?, decider.userId = d.decidedBy ∧ role ∈ decider.roles
  deriving Decidable

/-- If the policy that was selected when a request was raised names a role, then every approval of
the request is that of a user with the role. -/
def RoleLaw (C : State (schema env) T → Act T → Prop) (ops : T → Op) (s₀ s : State (schema env) T) :
    Prop :=
  ∀ a ∈ s.db.requests, ∀ c actor amount s₁, Raise env C ops s₀ s a c actor amount s₁ →
    ∀ role ∈ (resolvePolicy env s₁.db.policies a.workflowType amount).requiredRole,
      ∀ d ∈ s.db.decisions, d.requestId = a.id → d.decision = .approve →
        DecidedByHolder env ops s d role

/-- The next statement resolves the policies. -/
def resolves : Txn env → Bool
  | .query (.resolvePolicy _ _) _ => true
  | _ => false

/-- When a request is raised, whoever may approve a request whose id is not drawn yet has the role
of the policy that is selected. What happens to the requests that are there already does not
matter. -/
def RolesHeld (ops : T → Op) (s : State (schema env) T) : Act T → Prop
  | .run t => ∀ raise ∈ (ops t).raise?, ∀ p ∈ s.prog t, resolves env p = true →
      ∀ role ∈ (resolvePolicy env s.db.policies raise.1 raise.2).requiredRole,
        ∀ u, ∀ approval ∈ (ops u).approves?,
          s.stamp ≤ approval.2 ∧ approval.1.mayDecide → role ∈ approval.1.roles
  | .abort _ => True

instance [Fintype T] (ops : T → Op) (s : State (schema env) T) (a : Act T) :
    Decidable (RolesHeld env ops s a) :=
  match a with
  | .run t => inferInstanceAs (Decidable (∀ raise ∈ (ops t).raise?, _))
  | .abort _ => .isTrue trivial

end Law

section Runs

variable {env : Env} {T : Type} [DecidableEq T] {C : State (schema env) T → Act T → Prop}
  {ops : T → Op} {db0 : GovernanceDb} {n₀ : ℕ} {s : State (schema env) T}

def Write.decision? : Write → Option ApprovalDecision
  | .insertDecision d => some d
  | _ => none

private theorem decisions_replay (db : GovernanceDb) (log : List Write) :
    (replay (S := schema env) db log).decisions =
      db.decisions ++ log.filterMap Write.decision? := by
  refine replay_rows (S := schema env) GovernanceDb.decisions Write.decision? (fun db w ↦ ?_) db log
  cases w with
  | insertDecision d => rfl
  | insertPolicy | setPolicy | insertRequest | setRequest => exact (append_nil _).symm

/-- Every decision of a run that starts without any was inserted by a commit, for the user who sent
it. -/
theorem exists_decider (hno : db0.decisions = [])
    (h : Reach C (State.init db0 n₀ fun t ↦ (ops t).txn env) s) {d : ApprovalDecision}
    (hd : d ∈ s.db.decisions) :
    ∃ c ∈ s.commits, .insertDecision d ∈ c.writes ∧
      ∃ decider, ops c.txn = .decide decider d.requestId (some d.decision) ∧
        decider.mayDecide = true ∧ decider.userId = d.decidedBy := by
  have hori := Reach.exists_origin GovernanceDb.decisions Eq
    (fun c x ↦ .insertDecision x ∈ c.writes) h (fun _ ↦ rfl) Eq.trans (fun c _ x hx ↦ ?_) d hd
  · rcases hori with ⟨x, hx, -⟩ | ⟨c, hc, x, hx, rfl⟩
    · rw [hno] at hx
      cases hx
    · exact ⟨c, hc, hx, inserts_of_mem h hc hx⟩
  · rw [Commit.after, decisions_replay] at hx
    rcases mem_append.mp hx with hx | hx
    · exact .inl ⟨x, hx, rfl⟩
    · obtain ⟨w, hw, hwx⟩ := mem_filterMap.mp hx
      cases w with
      | insertDecision y => exact .inr (some.inj hwx ▸ hw)
      | insertPolicy | setPolicy | insertRequest | setRequest => cases hwx

/-- The id of a request is drawn after its transaction has read the policies. -/
theorem Raise.stamp_le {s₁ : State (schema env) T} {a : ApprovalRequest}
    {c : Commit (schema env) T} {actor : Actor} {amount : Option Numeric}
    (h : Raise env C ops (State.init db0 n₀ fun t ↦ (ops t).txn env) s a c actor amount s₁) :
    s₁.stamp ≤ a.id := by
  have hprog : (ops c.txn).txn env = .query (.resolvePolicy a.workflowType amount)
      (raiseResolved env actor a.workflowType amount) ∨
      (ops c.txn).txn env = refuse 400 "workflow_type is required" := by
    rw [h.op, Op.txn, raiseRequestTxn, requireWorkflow]
    split
    · exact .inr rfl
    · exact .inl rfl
  rcases hprog with hprog | hprog
  · have hun : s₁.Untouched c.txn := by
      refine h.before.untouched (fun q : Query ↦ ∃ wf am, q = .resolvePolicy wf am) hprog
        (fun r ↦ ⟨∅, ⟨?_, fun r ↦ ?_⟩⟩) h.reads ⟨_, _, rfl⟩
      · rintro ⟨wf, am, heq⟩
        cases heq
      · rcases r with _ | _ <;> trivial
    exact h.after.le_of_untouched (drawsStamp_requestIds env) hun c h.commits rfl _ h.inserts _
      (mem_singleton_self _)
  · have hno := (h.before.trans h.after).answers_init (t := c.txn) (W := fun ws _ ↦ ws = [])
      (by rw [hprog]; rfl) c h.commits rfl
    have hins := h.inserts
    rw [hno] at hins
    cases hins

end Runs

/-- In every run in which, whenever a request is raised, those who may approve requests to come have
the role of the selected policy, every approval is that of a user with the role. -/
theorem roleLaw_of_rolesHeld (env : Env) {T : Type} [DecidableEq T] (ops : T → Op)
    (policies : List Policy) (n₀ : ℕ) {s : State (schema env) T}
    (h : Reach (RolesHeld env ops) (State.init ⟨policies, [], []⟩ n₀ fun t ↦ (ops t).txn env) s) :
    RoleLaw env (RolesHeld env ops) ops
      (State.init ⟨policies, [], []⟩ n₀ fun t ↦ (ops t).txn env) s := by
  intro a _ c actor amount s₁ hrai role hrole d hd hid happ
  obtain ⟨c', hc', hins, decider, hop, hmay, huser⟩ := exists_decider rfl h hd
  have hdec : decider ∈ (ops c'.txn).decider? := by
    rw [hop]
    rfl
  have happr : (decider, d.requestId) ∈ (ops c'.txn).approves? := by
    rw [hop, happ]
    rfl
  have hheld := hrai.cond (a.workflowType, amount)
    (by rw [hrai.op]; rfl) _ hrai.reads rfl role hrole
  exact ⟨c', hc', hins, decider, hdec, huser,
    hheld c'.txn (decider, d.requestId) happr ⟨hid ▸ hrai.stamp_le, hmay⟩⟩

/-- Expenses from 100.00 on are to be approved by a `cfo`. -/
def approvedByCfo : Policy where
  id := 10
  workflowType := "expense"
  minAmount := ((10000 : ℤ) : Money)
  requiredApprovals := 1
  requiredRole := some "cfo"
  status := .active
  required_pos := by decide

/-- User 1 raises a request over 100.00, which user 2 approves. -/
def raiseForCfo (roles : List String) : Bool → Op
  | false => .raiseRequest ⟨1, false, []⟩ "expense" (some (.finite 100))
  | true => .decide ⟨2, true, roles⟩ 21 (some .approve)

/-- The request of `raiseForCfo`, approved. -/
def approvedExpense : ApprovalRequest where
  id := 21
  workflowType := "expense"
  amount := ((10000 : ℤ) : Money)
  requiredApprovals := 1
  approvalsCount := 1
  status := .approved
  requestedBy := 1

/-- A user without the role approves the request, as its only approval. -/
theorem not_roleLaw_of_permission :
    ∃ s : State (schema ⟨id⟩) Bool,
      Reach (AnyStep ⟨id⟩)
        (State.init ⟨[approvedByCfo], [], []⟩ 20 fun t ↦ (raiseForCfo [] t).txn ⟨id⟩) s ∧
      s.db.requests.map (·.status) = [.approved] ∧
      ¬RoleLaw ⟨id⟩ (AnyStep ⟨id⟩) (raiseForCfo [])
        (State.init ⟨[approvedByCfo], [], []⟩ 20 fun t ↦ (raiseForCfo [] t).txn ⟨id⟩) s := by
  refine exists_and_imp (fun s ↦ s.db.requests = [approvedExpense] ∧
      (∃ c ∈ s.commits, c.txn = false ∧ .insertRequest approvedExpense.raised ∈ c.writes) ∧
      ∃ d ∈ s.db.decisions, d.requestId = 21 ∧ d.decision = .approve ∧
      ¬DecidedByHolder ⟨id⟩ (raiseForCfo []) s d "cfo")
    (exists_of_runs (turns [(false, 3), (true, 6)]) (by decide +kernel)) ?_
  rintro s hs ⟨hreqs, ⟨c, hc, htxn, hins⟩, d, hd, hid, happ, hhol⟩
  refine ⟨by rw [hreqs]; rfl, fun hlaw ↦ hhol ?_⟩
  have hmem : approvedExpense ∈ s.db.requests := by
    rw [hreqs]
    exact mem_singleton_self _
  refine hlaw approvedExpense hmem c ⟨1, false, []⟩ (some (.finite 100)) _
    ⟨hc, hins, ?_, rfl, by decide +kernel, .refl, ?_, trivial, hs, by decide +kernel⟩ "cfo"
    (by decide +kernel) d hd hid happ
  · rw [htxn]
    rfl
  · rw [htxn]
    rfl

/-- With the role the same approval is admitted. -/
theorem roleLaw_of_rolesHeld_approved :
    ∃ s : State (schema ⟨id⟩) Bool,
      Reach (RolesHeld ⟨id⟩ (raiseForCfo ["cfo"]))
        (State.init ⟨[approvedByCfo], [], []⟩ 20 fun t ↦ (raiseForCfo ["cfo"] t).txn ⟨id⟩) s ∧
      s.db.requests.map (·.status) = [.approved] ∧
      RoleLaw ⟨id⟩ (RolesHeld ⟨id⟩ (raiseForCfo ["cfo"])) (raiseForCfo ["cfo"])
        (State.init ⟨[approvedByCfo], [], []⟩ 20 fun t ↦ (raiseForCfo ["cfo"] t).txn ⟨id⟩) s := by
  refine exists_and_imp (fun s ↦ s.db.requests.map (·.status) = [.approved])
    (exists_of_runs (turns [(false, 3), (true, 6)]) (by decide +kernel)) ?_
  rintro _ hs hst
  exact ⟨hst, roleLaw_of_rolesHeld ⟨id⟩ (raiseForCfo ["cfo"]) [approvedByCfo] 20 hs⟩

end FuelGrid.Governance
