import FuelGrid.Governance.Handlers
import Mathlib.Order.Bounds.Defs

/-!
# The approval engine

A request asks for as many approvals as the strictest policy that applied when it was raised
(`Required`), and from then on it is a vote with that quorum.

`engineLaw_of_reach` is the law of every interleaving of requests to the engine.
-/

namespace FuelGrid.Governance

open Sql Quorum

/-- The number of approvals that the policies ask for: the greatest of those that apply, and one if
none does. -/
def Required (policies : List Policy) (workflowType : String)
    (amount : Numeric) (required : ℕ) : Prop :=
  IsGreatest {r | ∃ p ∈ policies, p.Applies workflowType amount ∧
    p.requiredApprovals = r} required ∨
    (∀ p ∈ policies, ¬p.Applies workflowType amount) ∧ required = 1

section Policies

variable {policies : List Policy} {workflowType : String} {x y : Numeric}

theorem Required.pos {r : ℕ} (h : Required policies workflowType x r) : 0 < r := by
  rcases h with ⟨⟨p, -, -, rfl⟩, -⟩ | ⟨-, rfl⟩
  · exact p.required_pos
  · exact Nat.one_pos

theorem Required.mono {r r' : ℕ} (h : Required policies workflowType x r)
    (h' : Required policies workflowType y r') (hle : x ≤ y) : r ≤ r' := by
  rcases h with ⟨⟨p, hp, happ, rfl⟩, -⟩ | ⟨-, rfl⟩
  · have happ : p.Applies workflowType y := ⟨happ.1, happ.2.1, Numeric.le_trans happ.2.2 hle⟩
    rcases h' with ⟨-, hmax⟩ | ⟨hno, -⟩
    · exact hmax ⟨p, hp, happ, rfl⟩
    · exact absurd happ (hno p hp)
  · exact h'.pos

end Policies

/-! ## Requests as votes

The decisions on a request, in the order of their inserts, are votes of different users, none of
them the requester, and the status of the request is the outcome of the vote (`Tallied`). -/

def ApprovalDecision.vote (d : ApprovalDecision) : Vote Uuid := ⟨d.decidedBy, d.decision⟩

/-- The decisions on a request, in the order of their inserts. -/
def GovernanceDb.votesOn (db : GovernanceDb) (id : Uuid) : List (Vote Uuid) :=
  (db.decisions.filter (·.requestId = id)).map (·.vote)

def RequestStatus.ofOutcome : Outcome → RequestStatus
  | .pending => .requested
  | .approved => .approved
  | .rejected => .rejected

/-- The request is where its decisions have brought it. -/
structure Tallied (db : GovernanceDb) (a : ApprovalRequest) : Prop where
  count : a.approvalsCount = (approvers (db.votesOn a.id)).card
  status : a.status = .ofOutcome (outcome a.requiredApprovals (db.votesOn a.id))
  cast : Cast a.requiredApprovals (db.votesOn a.id)
  duties : a.requestedBy ∉ (db.votesOn a.id).map (·.voter)

def ApprovalRequest.raised (a : ApprovalRequest) : ApprovalRequest :=
  { a with approvalsCount := 0, status := .requested }

inductive Turn (before after : GovernanceDb) (a : ApprovalRequest) : Prop
  | stays : a ∈ after.requests → after.votesOn a.id = before.votesOn a.id → Turn before after a
  /-- A decision by a new user that is not the requester. It approves the request if it brings the
  number of approving users to the required one, and rejects it if it is a reject. -/
  | decided (v : Vote Uuid) (a' : ApprovalRequest) :
      a.status = .requested → v.voter ≠ a.requestedBy →
      v.voter ∉ (before.votesOn a.id).map (·.voter) →
      after.votesOn a.id = before.votesOn a.id ++ [v] → a' ∈ after.requests → a'.raised = a.raised →
      (a'.status = .approved ↔
        v.ballot = .approve ∧ (approvers (after.votesOn a.id)).card = a.requiredApprovals) →
      (a'.status = .rejected ↔ v.ballot = .reject) → Turn before after a

section Law

variable (env : Env) {T : Type} [DecidableEq T]

/-- The commit `c` has inserted the request, and its transaction read the policies in `s₁`. -/
structure Raise (C : State (schema env) T → Act T → Prop) (ops : T → Op)
    (s₀ s : State (schema env) T) (a : ApprovalRequest) (c : Commit (schema env) T)
    (actor : Actor) (amount : Option Numeric) (s₁ : State (schema env) T) : Prop where
  commits : c ∈ s.commits
  inserts : .insertRequest a.raised ∈ c.writes
  op : ops c.txn = .raiseRequest actor a.workflowType amount
  requester : actor.userId = a.requestedBy
  stored : (amount.getD (.finite 0)).store 14 2 = some a.amount
  before : Reach C s₀ s₁
  reads : s₁.prog c.txn = some (.query (.resolvePolicy a.workflowType amount)
    (raiseResolved env actor a.workflowType amount))
  cond : C s₁ (.run c.txn)
  after : Reach C s₁ s
  required : a.requiredApprovals
    = (resolvePolicy env s₁.db.policies a.workflowType amount).requiredApprovals

variable (ops : T → Op)

/-- Steps without a condition. -/
abbrev AnyStep (_ : State (schema env) T) (_ : Act T) : Prop := True

/-- What the engine does with requests. -/
structure ApprovalLaw (s₀ s : State (schema env) T) : Prop where
  raised : ∀ a ∈ s.db.requests, ∃ c actor amount s₁,
    Raise env (AnyStep env) ops s₀ s a c actor amount s₁ ∧
      Required s₁.db.policies a.workflowType (amount.getD (.finite 0)) a.requiredApprovals
  tallied : ∀ a ∈ s.db.requests, Tallied s.db a
  turns : ∀ c ∈ s.commits, ∀ a ∈ c.before.requests, Turn c.before c.after a
  final : ∀ c ∈ s.commits, ∀ a ∈ c.after.requests, a.status ≠ .requested →
    a ∈ s.db.requests ∧ s.db.votesOn a.id = c.after.votesOn a.id

end Law

/-! ## What a decision does

The row counts approvals and does not look at the decisions, so the count has to be kept level with
them: `Decide` reads the request with `FOR UPDATE` and inserts the decision under that lock, so that
no decision is committed between what it read and what it writes. -/

section Decision

variable {db db' : GovernanceDb} {a : ApprovalRequest}

/-- The update for either decision. -/
def ApprovalRequest.advance (a : ApprovalRequest) : Ballot → ApprovalRequest
  | .reject => a.reject
  | .approve => a.approve

theorem ApprovalRequest.advance_id (a : ApprovalRequest) (b : Ballot) :
    (a.advance b).id = a.id := by
  cases b <;> rfl

theorem ApprovalRequest.requiredApprovals_advance (a : ApprovalRequest) (b : Ballot) :
    (a.advance b).requiredApprovals = a.requiredApprovals := by
  cases b <;> rfl

theorem Tallied.congr (h : Tallied db a) (hvotes : db'.votesOn a.id = db.votesOn a.id) :
    Tallied db' a where
  count := hvotes ▸ h.count
  status := hvotes ▸ h.status
  cast := hvotes ▸ h.cast
  duties := hvotes ▸ h.duties

theorem Tallied.pending (h : Tallied db a) (hstatus : a.status = .requested) :
    outcome a.requiredApprovals (db.votesOn a.id) = .pending := by
  have hout := h.status.symm.trans hstatus
  cases ho : outcome a.requiredApprovals (db.votesOn a.id) <;> rw [ho] at hout <;> cases hout

variable {v : Vote Uuid} (hstatus : a.status = .requested)
  (hnew : v.voter ∉ (db.votesOn a.id).map (·.voter))
  (hvotes : db'.votesOn a.id = db.votesOn a.id ++ [v])

include hstatus hnew hvotes

/-- The status that the update writes is the outcome with the new vote. -/
theorem Tallied.advance_status (h : Tallied db a) :
    (a.advance v.ballot).status = .ofOutcome (outcome a.requiredApprovals (db'.votesOn a.id)) := by
  rw [hvotes]
  rcases hv : v.ballot with _ | _
  · rw [outcome_append_approve (h.pending hstatus) hv hnew, ← h.count]
    change (if _ then _ else _) = _
    split_ifs <;> rfl
  · rw [outcome_append_reject hv]
    rfl

theorem Tallied.advance (h : Tallied db a) (hduties : v.voter ≠ a.requestedBy) :
    Tallied db' (a.advance v.ballot) where
  count := by
    rw [ApprovalRequest.advance_id, hvotes]
    rcases hv : v.ballot with _ | _
    · rw [card_approvers_append hv hnew, ← h.count]
      rfl
    · rw [approvers_append_of_reject hv, ← h.count]
      rfl
  status := by
    rw [ApprovalRequest.advance_id, ApprovalRequest.requiredApprovals_advance]
    exact h.advance_status hstatus hnew hvotes
  cast := by
    rw [ApprovalRequest.advance_id, ApprovalRequest.requiredApprovals_advance, hvotes]
    exact h.cast.append (h.pending hstatus) hnew
  duties := by
    have hreq : (a.advance v.ballot).requestedBy = a.requestedBy := by cases v.ballot <;> rfl
    rw [ApprovalRequest.advance_id, hreq, hvotes, map_append, mem_append,
      map_singleton, mem_singleton, not_or]
    exact ⟨h.duties, hduties.symm⟩

end Decision

/-! ## Interleavings

A commit gives each request a turn: it stays as it is, or one vote is cast on it (`Turn`). -/

/-- The invariant of the committed rows. -/
structure Engine (db : GovernanceDb) (n : ℕ) : Prop where
  keyed : (db.requests.map (·.id)).Nodup
  below : ∀ a ∈ db.requests, a.id < n
  referred : ∀ d ∈ db.decisions, ∃ a ∈ db.requests, a.id = d.requestId
  tallied : ∀ a ∈ db.requests, Tallied db a

/-- Requests that are approved or rejected stay as they are, and so do the decisions on them. -/
def KeepsSettled (db db' : GovernanceDb) : Prop :=
  ∀ a ∈ db.requests, a.status ≠ .requested →
    a ∈ db'.requests ∧ db'.votesOn a.id = db.votesOn a.id

theorem KeepsSettled.trans {db1 db2 db3 : GovernanceDb} (h : KeepsSettled db1 db2)
    (h' : KeepsSettled db2 db3) : KeepsSettled db1 db3 := by
  intro a ha hstatus
  obtain ⟨ha2, hvts2⟩ := h a ha hstatus
  obtain ⟨ha3, hvts3⟩ := h' a ha2 hstatus
  exact ⟨ha3, hvts3.trans hvts2⟩

variable {amount : Option Numeric} {requestedBy : Uuid} {decision : Ballot} {actor : Actor}
  {workflowType : String} {required : ℕ}

section Contract

variable (env : Env) {n : ℕ}

/-- What the others leave to a transaction. -/
structure Leaves (l : Local (schema env)) (db db' : GovernanceDb) : Prop where
  rows : ∀ a ∈ db.requests, .request a.id ∈ l.held → a ∈ db'.requests
  votes : ∀ id, .request id ∈ l.held → db'.votesOn id = db.votesOn id
  ids : ∀ a ∈ db'.requests, (∃ x ∈ db.requests, x.id = a.id) ∨
    ∀ x, .insertRequest x ∈ l.log → x.id ≠ a.id

/-- A transaction decides the requests that it has locked. -/
structure Owes (l : Local (schema env)) : Prop where
  requests : ∀ a, .setRequest a ∈ l.log → .request a.id ∈ l.held
  decisions : ∀ d, .insertDecision d ∈ l.log → .request d.requestId ∈ l.held

def Write.requestIds : Write → List ℕ
  | .insertRequest a => [a.id]
  | _ => []

private theorem insertRequest_eq_ok {a : ApprovalRequest}
    (h : insertRequest n workflowType amount required requestedBy = .ok a) :
    a.id = n ∧ a.raised = a ∧ a.workflowType = workflowType ∧ a.requestedBy = requestedBy ∧
      a.requiredApprovals = required ∧ (amount.getD (.finite 0)).store 14 2 = some a.amount := by
  unfold insertRequest at h
  split at h
  · cases h
  next hsto =>
    cases h
    exact ⟨rfl, rfl, rfl, rfl, rfl, hsto⟩

/-- Requests and decisions are inserted by statements of their own. -/
def WrittenBy (q : Query) (view : GovernanceDb) (n : ℕ) : Write → Prop
  | .insertRequest a => ∃ workflowType amount required requestedBy,
      q = .insertRequest workflowType amount required requestedBy ∧
        insertRequest n workflowType amount required requestedBy = .ok a
  | .insertDecision d => ∃ requestId decision decidedBy,
      q = .insertDecision requestId decision decidedBy ∧
        insertDecision view n requestId decision decidedBy = .ok d
  | .insertPolicy _ | .setPolicy _ | .setRequest _ => True

private theorem writtenBy_of_mem_exec {q : Query} {committed view : GovernanceDb} {w : Write}
    (h : w ∈ (exec env q committed view n).1) : WrittenBy q view n w := by
  cases q with
  | insertPolicy input =>
    obtain ⟨p, -, rfl⟩ := mem_logged h
    trivial
  | updatePolicy id input =>
    obtain ⟨p, -, rfl⟩ := mem_loggedRow h
    trivial
  | setPolicyStatus id status =>
    obtain ⟨p, -, rfl⟩ := map_eq_some_iff.mp (mem_toList.mp h)
    trivial
  | insertRequest workflowType amount required requestedBy =>
    obtain ⟨a, ha, rfl⟩ := mem_logged h
    exact ⟨_, _, _, _, rfl, ha⟩
  | insertDecision requestId decision decidedBy =>
    obtain ⟨d, hd, rfl⟩ := mem_logged h
    exact ⟨_, _, _, rfl, hd⟩
  | advanceRequest id decision =>
    obtain ⟨a, -, rfl⟩ := mem_loggedRow h
    trivial
  | getPolicy | resolvePolicy | findRequest | lockedRequest => cases h

theorem drawsStamp_requestIds : DrawsStamp (S := schema env) Write.requestIds := by
  intro q committed view n w hw i hi
  cases w with
  | insertRequest a =>
    obtain ⟨_, _, _, _, -, hins⟩ := writtenBy_of_mem_exec env hw
    rw [mem_singleton.mp hi, (insertRequest_eq_ok hins).1]
  | insertPolicy | setPolicy | setRequest | insertDecision => cases hi

end Contract

section Replay

variable {env : Env} {db : GovernanceDb} {log : List Write} {a : ApprovalRequest} {id : Uuid}

private theorem votesOn_append (policies : List Policy) (requests : List ApprovalRequest)
    (decisions : List ApprovalDecision) (d : ApprovalDecision) (id : Uuid) :
    GovernanceDb.votesOn ⟨policies, requests, decisions ++ [d]⟩ id
      = GovernanceDb.votesOn ⟨policies, requests, decisions⟩ id ++
        if d.requestId = id then [d.vote] else [] := by
  rw [GovernanceDb.votesOn, filter_append, map_append, List.filter_singleton]
  split_ifs with hid
  · simp [hid, GovernanceDb.votesOn]
  · simp [hid, GovernanceDb.votesOn]

end Replay

section Safety

variable {env : Env} {held : Set LockKey} {log : List Write} {db : GovernanceDb} {n : ℕ} {id : Uuid}

/-- The rows of requests and decisions are all that the engine depends on. -/
theorem Engine.congr {db' : GovernanceDb} (h : Engine db n) (hreqs : db'.requests = db.requests)
    (hdec : db'.decisions = db.decisions) : Engine db' n := by
  obtain ⟨policies, requests, decisions⟩ := db'
  cases hreqs
  cases hdec
  exact ⟨h.keyed, h.below, h.referred, fun a ha ↦ (h.tallied a ha).congr rfl⟩

theorem Engine.raise (h : Engine db n) {a : ApprovalRequest} (hid : a.id < n)
    (hfr : ∀ x ∈ db.requests, x.id ≠ a.id) (hrai : a.raised = a) (hpos : 0 < a.requiredApprovals) :
    Engine (db.apply (.insertRequest a)) n := by
  have hvotes : db.votesOn a.id = [] := by
    rw [GovernanceDb.votesOn, List.map_eq_nil_iff, filter_eq_nil_iff]
    intro d hd hda
    obtain ⟨x, hx, hxd⟩ := h.referred d hd
    exact hfr x hx (hxd.trans (of_decide_eq_true hda))
  have htal : Tallied db a := by
    rw [← hrai]
    refine ⟨?_, ?_, ?_, ?_⟩ <;> simp only [ApprovalRequest.raised, hvotes]
    · rfl
    · rw [outcome_nil hpos]
      rfl
    · exact cast_nil
    · exact not_mem_nil
  constructor
  · exact nodup_key_snoc h.keyed hfr
  · exact forall_mem_append.mpr ⟨h.below, List.forall_mem_singleton.mpr hid⟩
  · intro d hd
    obtain ⟨x, hx, hxd⟩ := h.referred d hd
    exact ⟨x, mem_append_left _ hx, hxd⟩
  · intro x hx
    rcases mem_snoc.mp hx with hx | rfl
    · exact (h.tallied x hx).congr rfl
    · exact htal.congr rfl

def GovernanceDb.decide (db : GovernanceDb) (a : ApprovalRequest) (d : ApprovalDecision) :
    GovernanceDb :=
  (db.apply (.insertDecision d)).apply (.setRequest (a.advance d.decision))

section Decide

variable {a x : ApprovalRequest} {d : ApprovalDecision}

private theorem votesOn_decide_self (hd : d.requestId = a.id) :
    (db.decide a d).votesOn a.id = db.votesOn a.id ++ [d.vote] := by
  refine (votesOn_append _ _ _ d a.id).trans ?_
  rw [if_pos hd]
  rfl

private theorem votesOn_decide_of_ne (hd : d.requestId = a.id) (hne : x.id ≠ a.id) :
    (db.decide a d).votesOn x.id = db.votesOn x.id := by
  refine (votesOn_append _ _ _ d x.id).trans ?_
  rw [if_neg fun hdx ↦ hne (hdx.symm.trans hd), append_nil]
  rfl

private theorem ids_decide : (db.decide a d).requests.map (·.id) = db.requests.map (·.id) :=
  map_key_update _ _

private theorem mem_requests_decide (hx : x ∈ (db.decide a d).requests) :
    x = a.advance d.decision ∨ (x ∈ db.requests ∧ x.id ≠ a.id) := by
  rw [← a.advance_id d.decision]
  exact mem_update hx

variable (h : Engine db n) (ha : a ∈ db.requests) (hd : d.requestId = a.id)
  (hstatus : a.status = .requested) (hduties : d.decidedBy ≠ a.requestedBy)
  (hnew : d.decidedBy ∉ (db.votesOn a.id).map (·.voter))

include h ha hd hstatus hduties hnew

/-- A decision keeps the request level with its votes and does not concern the others. -/
theorem Engine.decide : Engine (db.decide a d) n := by
  constructor
  · rw [ids_decide]
    exact h.keyed
  · intro x hx
    obtain ⟨y, hy, hyx⟩ := exists_key_eq ids_decide hx
    exact hyx ▸ h.below y hy
  · intro e he
    have href : ∃ x ∈ db.requests, x.id = e.requestId := by
      rcases mem_snoc.mp he with he | rfl
      · exact h.referred e he
      · exact ⟨a, ha, hd.symm⟩
    obtain ⟨x, hx, hxe⟩ := href
    obtain ⟨y, hy, hyx⟩ := exists_key_eq (ids_decide (d := d)).symm hx
    exact ⟨y, hy, hyx.trans hxe⟩
  · intro x hx
    rcases mem_requests_decide hx with rfl | ⟨hx, hne⟩
    · exact (h.tallied a ha).advance hstatus hnew (votesOn_decide_self hd) hduties
    · exact (h.tallied x hx).congr (votesOn_decide_of_ne hd hne)

end Decide

private theorem insertDecision_eq_ok {decidedBy : Uuid} {d : ApprovalDecision}
    (h : insertDecision db n id decision decidedBy = .ok d) :
    d = ⟨n, id, decision, decidedBy⟩ ∧ decidedBy ∉ (db.votesOn id).map (·.voter) := by
  unfold insertDecision at h
  split at h
  · cases h
  next hun =>
    split at h <;> cases h
    refine ⟨rfl, fun hmem ↦ hun ?_⟩
    obtain ⟨v, hv, rfl⟩ := mem_map.mp hmem
    obtain ⟨e, he, rfl⟩ := mem_map.mp hv
    obtain ⟨he, hid⟩ := mem_filter.mp he
    exact ⟨e, he, of_decide_eq_true hid, rfl⟩

end Safety

/-! ## Every run -/

section Runs

variable {env : Env} {held : Set LockKey} {a : ApprovalRequest}

/-- What the request to the server can insert: only `raiseRequest` inserts requests, and a decision
is inserted for the user who sent it. -/
def Op.Inserts (op : Op) : Write → Prop
  | .insertRequest _ => ∃ actor workflowType amount, op = .raiseRequest actor workflowType amount
  | .insertDecision d => ∃ actor, op = .decide actor d.requestId (some d.decision) ∧
      actor.mayDecide = true ∧ actor.userId = d.decidedBy
  | .insertPolicy _ | .setPolicy _ | .setRequest _ => True

/-- The statement inserts what the request can. -/
def Allows (env : Env) (op : Op) (_ : Set LockKey) (q : Query) : Prop :=
  ∀ committed view n, ∀ w ∈ (exec env q committed view n).1, op.Inserts w

def Query.plain : Query → Bool
  | .insertRequest _ _ _ _ | .insertDecision _ _ _ => false
  | _ => true

private theorem allows_of_plain {op : Op} {q : Query} (hq : q.plain = true) :
    Allows env op held q := by
  intro committed view n w hw
  have hwri := writtenBy_of_mem_exec env hw
  cases w with
  | insertRequest a =>
    obtain ⟨_, _, _, _, rfl, -⟩ := hwri
    cases hq
  | insertDecision d =>
    obtain ⟨_, _, _, rfl, -⟩ := hwri
    cases hq
  | insertPolicy | setPolicy | setRequest => trivial

private theorem allows_insertDecision {id : Uuid} (hmay : actor.mayDecide = true) :
    Allows env (.decide actor id (some decision)) held
      (.insertDecision id decision actor.userId) := by
  intro committed view n w hw
  obtain ⟨x, hx, rfl⟩ := mem_logged hw
  rw [(insertDecision_eq_ok hx).1]
  exact ⟨actor, rfl, hmay, rfl⟩

private theorem each_requireWorkflow {op : Op} {next : Txn env}
    (h : next.Each (Allows env op) held) :
    (requireWorkflow env workflowType next).Each (Allows env op) held := by
  unfold requireWorkflow
  split
  · trivial
  · exact h

theorem each_allows_decideTxn (actor : Actor) (id : Uuid) (decision : Option Ballot) :
    (decideTxn env actor id decision).Each (Allows env (.decide actor id decision)) held := by
  unfold decideTxn
  split
  next hmay =>
    rcases decision with _ | decision
    · trivial
    refine ⟨allows_of_plain rfl, fun r ↦ ?_⟩
    rcases r with _ | _
    · trivial
    refine ⟨allows_of_plain rfl, fun r ↦ ?_⟩
    rcases r with _ | a
    · trivial
    dsimp only
    split_ifs
    · trivial
    · trivial
    refine ⟨allows_insertDecision hmay, fun r ↦ ?_⟩
    rcases r with (_ | _ | _ | _) | d
    case ok =>
      refine ⟨allows_of_plain rfl, fun r ↦ ?_⟩
      rcases r with _ | _ | _ <;> trivial
    all_goals trivial
  · trivial

theorem each_allows_txn (op : Op) : (op.txn env).Each (Allows env op) held := by
  cases op with
  | createPolicy input =>
    refine each_requireWorkflow ⟨allows_of_plain rfl, fun r ↦ ?_⟩
    rcases r with _ | _ <;> trivial
  | simulate workflowType amount =>
    exact each_requireWorkflow ⟨allows_of_plain rfl, fun r ↦ trivial⟩
  | updatePolicy id input =>
    refine each_requireWorkflow ⟨allows_of_plain rfl, fun r ↦ ?_⟩
    rcases r with _ | _
    · trivial
    refine ⟨allows_of_plain rfl, fun r ↦ ?_⟩
    rcases r with _ | _ | _ <;> trivial
  | setPolicyStatus id status =>
    rcases status with _ | status
    · trivial
    refine ⟨allows_of_plain rfl, fun r ↦ ?_⟩
    rcases r with _ | _
    · trivial
    refine ⟨allows_of_plain rfl, fun r ↦ ?_⟩
    rcases r with _ | _ <;> trivial
  | raiseRequest actor workflowType amount =>
    refine each_requireWorkflow ⟨allows_of_plain rfl, fun r ↦ ⟨fun _ _ _ w hw ↦ ?_, fun r ↦ ?_⟩⟩
    · obtain ⟨x, -, rfl⟩ := mem_logged hw
      exact ⟨_, _, _, rfl⟩
    · rcases r with _ | _ <;> trivial
  | decide actor id decision => exact each_allows_decideTxn actor id decision

variable {T : Type} [DecidableEq T] {C : State (schema env) T → Act T → Prop} {ops : T → Op}
  {db0 : GovernanceDb} {n₀ : ℕ} {s : State (schema env) T} {c : Commit (schema env) T}

theorem inserts_of_mem (h : Reach C (State.init db0 n₀ fun t ↦ (ops t).txn env) s)
    (hc : c ∈ s.commits) {w : Write} (hw : w ∈ c.writes) : (ops c.txn).Inserts w := by
  have hall : ((ops c.txn).txn env).Each (Allows env (ops c.txn)) ∅ := each_allows_txn _
  have hans := Prog.answers_of_each hall fun w hw ↦ absurd hw not_mem_nil
  exact h.answers_init hans c hc rfl w hw

theorem Raise.congr {s₀ s₁ : State (schema env) T} {x : ApprovalRequest}
    (h : Raise env C ops s₀ s x c actor amount s₁) (hxa : x.raised = a.raised) :
    Raise env C ops s₀ s a c actor amount s₁ := by
  obtain ⟨-, hwor, hamt, hreq, -, -, hreu⟩ := ApprovalRequest.mk.inj hxa
  obtain ⟨hcom, hins, hop, hact, hsd, hbef, hrea, hc, haft, hcnt⟩ := h
  rw [hxa] at hins
  rw [hwor] at hop hrea hcnt
  rw [hreu] at hact
  rw [hamt] at hsd
  rw [hreq] at hcnt
  exact ⟨hcom, hins, hop, hact, hsd, hbef, hrea, hc, haft, hcnt⟩

end Runs

end FuelGrid.Governance
