import FuelGrid.Forecourt.SettledLines
import FuelGrid.Station.ApprovalContract
import FuelGrid.Station.ExpectedCash

/-!
# An approved shift has passed its gates, and nothing about it changes

The requests around the approval of a shift are executed under the contract of `ApprovalContract`.
-/

namespace FuelGrid.Station

open Sql Forecourt

variable {env : StationEnv} {override : Bool}

private theorem verdictContract_within :
    Contract.Within (forecourtPart env) (verdictContract env.forecourt) (gateContract env) where
  inv hinv := hinv.forecourt
  rely hr := ⟨hr.readings, hr.verdict⟩
  cond _ := trivial
  commit {held log a db n} hinv hguar hinv' _ := by
    have hrep := (forecourtPart env).replay_write db log
    have hgate := gate_verdict (log.map (forecourtPart env).write) hinv hguar hinv'
    refine ⟨?_, ?_, ?_⟩
    · change GateGuar held _ db (replay (S := schema env) db (log.map (forecourtPart env).write))
      rw [hrep]
      exact hgate.1
    · change GateInv (replay (S := schema env) db (log.map (forecourtPart env).write)) n
      rw [hrep]
      exact hgate.2.1
    · change ApprovedFrozen db (replay (S := schema env) db (log.map (forecourtPart env).write))
      rw [hrep]
      exact hgate.2.2

section Safe

variable {held : Set LockKey} {db db' : StationDb} {n : ℕ} {shift actor : Uuid}
  {l : Local (schema env)} {c : CashSubmission} {status : String}

/-! ## Cash -/

/-- The shift that a request on cash has locked in shared mode and found closed. -/
structure SharedClosed (shift : Uuid) (held : Set LockKey) (db : StationDb) : Prop where
  shared : .shiftShare shift ∈ held
  closed : ∃ s, db.forecourt.shifts.find? (·.id = shift) = some s ∧ s.status = .closed

theorem SharedClosed.rely (h : SharedClosed shift held db) (hl : held ⊆ l.held)
    (hr : GateRely l db db') : SharedClosed shift held db' where
  shared := h.shared
  closed := by
    obtain ⟨s, hs, hcl⟩ := h.closed
    exact ⟨s, hr.shift shift s (.inr (hl h.shared)) hs, hcl⟩

theorem SharedClosed.not_approved (h : SharedClosed shift held db) (hinv : GateInv db n) :
    ¬ApprovedIn db.forecourt shift := by
  rintro ⟨x, hx, hid, happ⟩
  obtain ⟨s, hs, hcl⟩ := h.closed
  obtain ⟨hmem, hid'⟩ := key_of_find? hs
  rw [inj_on_of_nodup_map hinv.forecourt.keys.shifts hx hmem (hid.trans hid'.symm), hcl] at happ
  cases happ

private theorem safe_lockShiftStatusForShare {next : Option ShiftStatus → Txn env}
    {I : StationDb → Prop}
    (hI : ∀ {l db db'}, (gateContract env).rely l db db' → I db → I db') (h : I db)
    (hoth : ∀ status db' n', status ≠ some .closed →
      (gateContract env).Safe (next status) (insert (.shiftShare shift) held) [] db' n')
    (hcl : ∀ db' n', I db' → SharedClosed shift (insert (.shiftShare shift) held) db' →
      (gateContract env).Safe (next (some .closed)) (insert (.shiftShare shift) held) [] db' n') :
    (gateContract env).Safe (lockShiftStatusForShare env shift next) held [] db n := by
  intro db1 n1 _ hr1 _ _
  refine safe_reply rfl
    fun db2 n2 hr2 _ (status : Option ShiftStatus) hst ↦ ?_
  by_cases hc : status = some .closed
  · subst hc
    obtain ⟨s, hs, hsc⟩ := map_eq_some_iff.mp hst
    exact hcl db2 _ (hI hr2 (hI hr1 h)) ⟨mem_insert _ _, s, hs, hsc⟩
  · exact hoth status db2 _ hc

private theorem safe_commit_submission {raised : List Write} (h : SharedClosed c.shiftId held db)
    (hfr : FreshSubmission db c.id) (hn : c.id < n) (hrai : ∀ db : StationDb, Submitted db
      (replay (S := schema env) db (.insertSubmission c :: raised)) c) :
    (gateContract env).Safe (.commit (.submission c)) held
      (.insertSubmission c :: raised) db n := by
  intro db' n' hn' hr hinv _
  have h' := h.rely subset_rfl hr
  have hfr' := hr.fresh _ mem_cons_self c.id (mem_singleton_self _) hfr
  exact (hrai db').gate hinv h.shared (h'.not_approved hinv) hfr'
    ⟨_, mem_cons_self, mem_singleton_self _⟩ (hn.trans_le hn')

private theorem safe_raiseVariance (h : SharedClosed c.shiftId held db)
    (hfr : FreshSubmission db c.id) (hn : c.id < n) :
    (gateContract env).Safe (raiseVariance env c.shiftId c) held [.insertSubmission c] db n := by
  unfold raiseVariance
  split
  · refine safe_query fun db1 n1 hn1 hr1 _ _ ws (r : ShiftException) hout ↦ ?_
    obtain ⟨rfl, -⟩ := Prod.mk.inj hout
    have hfr1 := hr1.fresh _ mem_cons_self c.id (mem_singleton_self _) hfr
    refine safe_commit_submission (h.rely subset_rfl hr1) hfr1
      (hn.trans_le (hn1.trans (le_succ _))) fun db' ↦
      ⟨rfl, rfl, rfl, fun e he ↦ ?_⟩
    rcases mem_snoc.mp he with he | rfl
    · exact .inl he
    · exact .inr rfl
  · exact safe_commit_submission h hfr hn fun db' ↦ ⟨rfl, rfl, rfl, fun e he ↦ .inl he⟩

private theorem safe_requireVarianceReason {K : Contract (schema env)} {next : Txn env}
    {log : List Write} (hnx : K.Safe next held log db n) :
    K.Safe (requireVarianceReason env override c next) held log db n := by
  unfold requireVarianceReason
  split
  · split
    · trivial
    · split
      · exact hnx
      · trivial
  · exact hnx

private theorem safe_submitInput {input : CashSubmissionInput} :
    (gateContract env).Safe (submitInput env override input) ∅ [] db n := by
  refine safe_lockShiftStatusForShare (I := fun _ ↦ True) (fun _ h ↦ h) trivial
    (fun status db1 n1 hst ↦ ?_) fun db1 n1 _ h1 ↦ ?_
  · rcases status with _ | status
    · trivial
    · dsimp only
      rw [if_pos fun hcl ↦ hst (congrArg some hcl)]
      trivial
  dsimp only
  rw [if_neg (not_not.mpr rfl)]
  intro db2 n2 _ hr2 _ _
  have h2 := h1.rely subset_rfl hr2
  refine safe_query fun db3 n3 _ hr3 hinv3 _ ws r hout ↦ ?_
  have h3 := h2.rely (subset_insert _ _) hr3
  obtain ⟨e, -, rfl, rfl⟩ | ⟨c, hin, rfl, rfl⟩ := logged_eq hout
  · cases e <;> trivial
  obtain ⟨hid, hsh, -⟩ := CashSubmissionInput.row_eq_some (insertCashSubmission_eq_ok hin).1
  refine safe_requireVarianceReason ?_
  rw [← hsh] at h3 ⊢
  exact safe_raiseVariance ⟨mem_insert_of_mem _ h3.shared, h3.closed⟩
    (hinv3.drawn _ hid.ge) (hid ▸ lt_succ_self _)

theorem safe_handleSubmitCash {req : CashSubmissionRequest} :
    (gateContract env).Safe (handleSubmitCash env actor shift req) ∅ [] db n := by
  unfold handleSubmitCash
  split
  · trivial
  refine safe_shiftForScopedWrite fun s override db1 n1 _ ↦ ?_
  split
  · trivial
  refine safe_reply rfl ?_
  rintro db2 n2 _ _ (_ | expected) _
  · trivial
  · exact safe_submitInput

private theorem safe_commit_receipt {db0 : StationDb} {r : CollectionReceipt} {w : Write}
    (h : SharedClosed c.shiftId held db) (hc : c ∈ db.submissions)
    (hid : r.cashSubmissionId = c.id) (hsh : r.shiftId = c.shiftId) (hw : ReceiptWrite db0 r w) :
    (gateContract env).Safe (.commit (.receipt r)) held [w] db n := by
  intro db' n' _ hr hinv _
  have h' := h.rely subset_rfl hr
  have hcon : Confirmed db' (db'.apply w) r c :=
    hw.confirmed hinv (hr.submissions c hc) hid hsh
  exact hcon.gate hinv h.shared (h'.not_approved hinv)

private theorem safe_upsertReceipt {input : CollectionReceiptInput}
    (h : SharedClosed c.shiftId held db)
    (hc : c ∈ db.submissions) (hid : input.cashSubmissionId = c.id)
    (hsh : input.shiftId = c.shiftId) :
    (gateContract env).Safe (upsertReceipt env input) held [] db n := by
  -- what the input says about the receipt
  have hrow : ∀ {id r}, input.row id = .ok r → r.cashSubmissionId = c.id ∧
      r.shiftId = c.shiftId := by
    intro id r hrow
    obtain ⟨hrsh, hrid, -⟩ := CollectionReceiptInput.row_eq_ok hrow
    exact ⟨hrid.trans hid, hrsh.trans hsh⟩
  intro db1 n1 _ hr1 _ _
  have h1 := h.rely subset_rfl hr1
  have hc1 := hr1.submissions c hc
  refine safe_query fun db2 n2 _ hr2 _ _ ws r hout ↦ ?_
  have h2 := h1.rely (subset_insert _ _) hr2
  have hc2 := hr2.submissions c hc1
  obtain ⟨e, -, rfl, rfl⟩ | ⟨r, hin, rfl, rfl⟩ := logged_eq hout
  · rcases e with _ | _ | _ | _
    iterate 3 trivial
    refine safe_reply rfl fun db3 n3 hr3 _ (found : Bool) _ ↦ ?_
    have h3 := h2.rely (subset_insert _ _) hr3
    have hc3 := hr3.submissions c hc2
    rcases found with _ | _
    · trivial
    refine safe_query fun db4 n4 _ hr4 _ _ ws r hout ↦ ?_
    have h4 := h3.rely (subset_insert _ _) hr4
    obtain ⟨e, -, rfl, rfl⟩ | ⟨-, rfl, rfl⟩ | ⟨r, hrep, rfl, rfl⟩ := loggedRow_eq hout
    · trivial
    · trivial
    · obtain ⟨⟨id, hr⟩, hw⟩ := replaceHeldReceipt_eq_ok hrep
      exact safe_commit_receipt ⟨mem_insert_of_mem _ h4.shared, h4.closed⟩
        (hr4.submissions c hc3) (hrow hr).1 (hrow hr).2 hw
  · obtain ⟨hr, hw⟩ := insertCollectionReceipt_eq_ok hin
    exact safe_commit_receipt ⟨mem_insert_of_mem _ h2.shared, h2.closed⟩ hc2 (hrow hr).1
      (hrow hr).2 hw

theorem safe_handleConfirmCashSubmission {receivedTotal : ℚ} {reason : String} :
    (gateContract env).Safe
      (handleConfirmCashSubmission env actor shift receivedTotal status reason) ∅ [] db n := by
  unfold handleConfirmCashSubmission
  split
  · trivial
  split
  · trivial
  refine safe_shiftForWrite fun s db1 n1 hid ↦ ?_
  split
  · trivial
  refine safe_reply rfl
    fun db2 n2 _ _ (found : Option CashSubmission) hfd ↦ ?_
  rcases found with _ | c
  · trivial
  obtain ⟨hc, hsh⟩ := key_of_find? hfd
  dsimp only
  split
  · trivial
  split
  · trivial
  split
  · trivial
  refine safe_lockShiftStatusForShare (fun hr ↦ hr.submissions c) hc
    (fun status db3 n3 hst ↦ ?_) fun db3 n3 hc3 h3 ↦ ?_
  · rcases status with _ | status
    · trivial
    · dsimp only
      rw [if_pos fun hcl ↦ hst (congrArg some hcl)]
      trivial
  · dsimp only at h3 ⊢
    rw [if_neg (not_not.mpr rfl)]
    rw [← hsh] at h3 ⊢
    exact safe_upsertReceipt h3 hc3 rfl rfl

/-! ## Exceptions and the approval -/

theorem safe_handleResolveShiftException {id : Uuid} :
    (gateContract env).Safe (handleResolveShiftException env actor id status) ∅ [] db n := by
  unfold handleResolveShiftException
  split
  · trivial
  refine safe_reply rfl
    fun db1 n1 _ _ (found : Option ShiftException) _ ↦ ?_
  rcases found with _ | e
  · trivial
  refine safe_reply rfl ?_
  rintro db2 n2 _ _ (_ | s) _
  · trivial
  refine safe_authorizeStation ?_
  refine safe_reply rfl fun db3 n3 _ _ (found : Bool) _ ↦ ?_
  rcases found with _ | _
  · trivial
  rw [if_pos rfl]
  intro db4 n4 _ _ _ _
  refine safe_query fun db5 n5 _ _ _ _ ws r hout ↦ ?_
  obtain ⟨-, rfl, rfl⟩ | ⟨_, hop, rfl, rfl⟩ := loggedUpdate_eq hout
  · trivial
  · obtain ⟨e, -, rfl⟩ := map_eq_some_iff.mp hop
    intro db6 n6 _ _ hinv6 _
    exact gate_resolve hinv6 rfl

private theorem resolved_of_count (h : openExceptionCount db shift = 0) : Resolved db shift := by
  intro e he hid hop
  have hnot := countP_eq_zero.mp h e he
  exact hnot (decide_eq_true ⟨hid, hop⟩)

private theorem receipted_of_awaiting (h : cashSubmissionAwaitingReceipt db shift = false) :
    Receipted db shift := by
  intro c hc hid
  by_contra hno
  exact of_decide_eq_false h ⟨c, hc, hid, hno⟩

/-- A closing that is neither unverified nor held has a final verdict. -/
theorem verified_of_counts {db : ShiftDb} (h : closingVerificationGateCounts db shift = (0, 0, 0)) :
    Verified db shift := by
  obtain ⟨hunv, hrej, hfla⟩ : _ ∧ _ ∧ _ := by
    simpa only [closingVerificationGateCounts, Prod.mk.injEq] using h
  rintro m hm ⟨hsh, -, hty, hact⟩
  have hmem : m ∈ db.readings.filter fun m ↦
      m.shiftId = shift ∧ m.readingType = .closing ∧ m.status = .active :=
    mem_filter.mpr ⟨hm, decide_eq_true ⟨hsh, hty, hact⟩⟩
  have hsm := countP_eq_zero.mp hunv m hmem
  simp only [decide_not, Bool.not_eq_true, Bool.not_eq_false', decide_eq_true_eq] at hsm
  obtain ⟨v, hv, hid⟩ := hsm
  have hjoi : v ∈ (db.readings.filter fun m ↦
      m.shiftId = shift ∧ m.readingType = .closing ∧ m.status = .active).flatMap
      fun m ↦ db.verifications.filter (·.readingId = m.id) :=
    mem_flatMap.mpr ⟨m, hmem, mem_filter.mpr ⟨hv, decide_eq_true hid⟩⟩
  have hnr := countP_eq_zero.mp hrej v hjoi
  have hnf := countP_eq_zero.mp hfla v hjoi
  refine ⟨v, hv, hid, ?_⟩
  rcases hst : v.status with _ | _ | _ | _
  · exact .inl rfl
  · exact .inr rfl
  · exact absurd (decide_eq_true hst) hnr
  · exact absurd (decide_eq_true hst) hnf

/-- What an approval knows past its gates. -/
structure Passed (s : Shift) (db : StationDb) : Prop where
  found : db.forecourt.shifts.find? (·.id = s.id) = some s
  resolved : Resolved db s.id
  verified : Verified db.forecourt s.id
  receipted : Receipted db s.id

theorem Passed.rely {s : Shift} (h : Passed s db) (hhd : .forecourt (.shift s.id) ∈ l.held)
    (hr : GateRely l db db') : Passed s db' where
  found := hr.shift s.id s (.inl hhd) h.found
  resolved := hr.resolved s.id hhd h.resolved
  verified := hr.verified s.id h.verified
  receipted := hr.receipted s.id hhd h.receipted

private theorem safe_approve_gates :
    (gateContract env).Safe (handleApproveShift env actor shift status) ∅ [] db n := by
  refine safe_handleApproveShift fun s db1 n1 hs1 _ ↦ ?_
  obtain ⟨-, rfl⟩ := key_of_find? hs1
  have hhd : LockKey.forecourt (.shift s.id) ∈
      insert (LockKey.forecourt (.shift s.id)) (∅ : Set LockKey) := mem_insert _ _
  refine safe_approvalGates
    fun db2 db3 db4 n4 ⟨_, hr2⟩ hcnt ⟨_, hr3⟩ hcou ⟨_, hr4⟩ hawa ↦ ?_
  have hs4 := hr4.shift _ s (.inl hhd) (hr3.shift _ s (.inl hhd)
    (hr2.shift _ s (.inl hhd) hs1))
  have h4 : Passed s db4 := {
    found := hs4
    resolved := hr4.resolved _ hhd (hr3.resolved _ hhd (resolved_of_count hcnt))
    verified := hr4.verified _ (verified_of_counts hcou)
    receipted := receipted_of_awaiting hawa }
  refine safe_finishApproval (fun hr h ↦ h.rely hhd hr) (fun h ↦ h.found) h4
    fun db5 n5 h5 ↦ ?_
  intro db6 n6 _ hr6 hinv6 _
  have h6 := h5.rely hhd hr6
  exact gate_approve hinv6 hhd h6.resolved h6.verified h6.receipted

/-- The requests around the approval of a shift. -/
def Op.OfApproval : Op → Prop
  | .forecourt op _ => op.GivesVerdict
  | .submitCash .. | .confirmCash .. | .resolveException .. | .approveShift .. => True
  | _ => False

theorem safe_op_approval {op : Op} (hop : op.OfApproval) :
    (gateContract env).Safe (op.prog env) ∅ [] db n := by
  rcases op with ⟨op, _⟩ | _ | _ | _ | _ | _ | _ | _
  · have hsafe : (gateContract env).Safe ((op.prog env.forecourt).lift (forecourtPart env)) ∅
        (List.map (forecourtPart env).write []) db n :=
      Contract.Safe.lift verdictContract_within (safe_op_verdict hop)
    exact hsafe
  · exact hop.elim
  · exact safe_approve_gates
  · exact safe_handleSubmitCash
  · exact safe_handleConfirmCashSubmission
  · exact safe_handleResolveShiftException
  · exact hop.elim
  · exact hop.elim

end Safe

/-! ## Every run

In every run, whatever the interleaving, the shifts that are approved have no open exception,
verified closings and confirmed cash, and from then on their verifications, their close lines and
their receipts stay as they are (`approvalLaw_of_reach`). -/

/-- However verdicts, corrections, submissions, confirmations, resolutions and approvals interleave,
in every state reached an approved shift has no open exception, verified closings and confirmed
cash, and in every later state it is still approved with the same verifications, close lines and
receipts. -/
theorem approvalLaw_of_reach (env : StationEnv) {T : Type} [DecidableEq T] {ops : T → Op}
    (hops : ∀ t, (ops t).OfApproval) {db : StationDb} {n : ℕ} (hkeys : Keys db.forecourt)
    (hsubmissions : (db.submissions.map (·.id)).Nodup)
    (htied : ∀ r ∈ db.receipts, ∀ c ∈ db.submissions, r.cashSubmissionId = c.id →
      r.shiftId = c.shiftId)
    (hdrawn : ∀ k, n ≤ k → FreshSubmission db k) (hlaw : ApprovalLaw db)
    {s s' : State (schema env) T}
    (hreach : Reach (fun _ _ ↦ True)
      (State.init (S := schema env) db n fun t ↦ (ops t).prog env) s)
    (hlat : Reach (fun _ _ ↦ True) s s') : ApprovalLaw s.db ∧ ApprovedFrozen s.db s'.db := by
  have hG : ∀ {s : State (schema env) T}, Reach (fun _ _ ↦ True)
      (State.init (S := schema env) db n fun t ↦ (ops t).prog env) s →
      s.Exclusive ∧ s.Distinct Write.submissionIds :=
    fun h ↦ ⟨exclusive_of_reach h, distinct_of_reach drawsStamp_submissionIds h⟩
  have hinv : GateInv db n := by
    refine ⟨⟨hkeys, ?_⟩, hsubmissions, htied, hdrawn, ?_⟩
    · rintro id ⟨x, hx, rfl, hx'⟩
      exact (hlaw x hx hx').2.1
    · rintro id ⟨x, hx, rfl, hx'⟩
      exact ⟨(hlaw x hx hx').1, (hlaw x hx hx').2.2⟩
  have hrch' := hreach.strengthen hG
  have hlat' := hlat.strengthen fun h ↦ hG (hreach.trans h)
  have hsafe : ∀ t, (gateContract env).Safe ((ops t).prog env) ∅ [] db n :=
    fun t ↦ safe_op_approval (hops t)
  have hinv' : GateInv s.db s.stamp :=
    (Contract.soundEach gateContract_suits .tick hinv hsafe hrch').1
  refine ⟨fun x hx hx' ↦ ?_, ?_⟩
  · obtain ⟨hres, hrec⟩ := hinv'.law x.id ⟨x, hx, rfl, hx'⟩
    exact ⟨hres, hinv'.forecourt.verified x.id ⟨x, hx, rfl, hx'⟩, hrec⟩
  · exact Contract.soundEach_later gateContract_suits .tick .refl .trans (fun h ↦ h) hinv hsafe
      hrch' hlat'

/-- The shift 0 is closed, and its closing 9 has no verdict yet. -/
def unapprovedStation : StationDb :=
  { openStation with
    forecourt := { readShift with shifts := [⟨0, 0, .closed, 0, some 6, some 0⟩] } }

/-- The closing is approved, the cash is submitted and confirmed, the shift is approved, and another
supervisor rejects the closing. -/
def approveAndReject : Fin 5 → Op
  | 0 => .forecourt (.approve 8 0 9) rfl
  | 1 => .submitCash 7 0 ⟨none, none, none, none, none⟩
  | 2 => .confirmCash 8 0 0 "" ""
  | 3 => .approveShift 9 0 "approved"
  | 4 => .forecourt (.reject 6 0 9 "meter misread") rfl

/-- The start of a run of the five. -/
def approveAndRejectState : State (schema openEnv) (Fin 5) :=
  State.init (S := schema openEnv) unapprovedStation 10 fun t ↦ (approveAndReject t).prog openEnv

/-- The rejection finds the shift closed, the shift is approved, and the rejection is refused. -/
theorem approvalLaw_of_reach_refused :
    ∃ s s' : State (schema openEnv) (Fin 5),
      Reach (fun _ _ ↦ True) approveAndRejectState s ∧ Reach (fun _ _ ↦ True) s s' ∧
      s.db.forecourt.shifts.map (·.status) = [.approved] ∧
      ApprovalLaw s.db ∧ ApprovedFrozen s.db s'.db := by
  have hrun : ∃ s : State (schema openEnv) (Fin 5),
      Reach (fun _ _ ↦ True) approveAndRejectState s ∧
      s.db.forecourt.shifts.map (·.status) = [.approved] ∧
      (s.runs (fun _ _ ↦ True) (turns [(4, 4)])).isSome :=
    exists_of_runs (turns [(4, 2), (0, 5), (1, 7), (2, 7), (3, 13)]) (by decide +kernel)
  obtain ⟨s, hrch, happ, href⟩ := hrun
  obtain ⟨s', hs'⟩ := isSome_iff_exists.mp href
  have hops : ∀ t, (approveAndReject t).OfApproval := fun
    | 0 => trivial
    | 1 => trivial
    | 2 => trivial
    | 3 => trivial
    | 4 => trivial
  have hks : Keys unapprovedStation.forecourt := {
    keys_readShift with
    shifts := by decide }
  have hdr : ∀ k, 10 ≤ k → FreshSubmission unapprovedStation k := fun k _ ↦
    ⟨nofun, nofun⟩
  exact ⟨s, s', hrch, .of_runs hs', happ,
    approvalLaw_of_reach openEnv hops hks (by decide) (by decide) hdr (by decide) hrch
      (.of_runs hs')⟩

end FuelGrid.Station
