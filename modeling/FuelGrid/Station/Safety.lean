import FuelGrid.Station.Effects

/-!
# Station requests under a contract

Rules for the parts that the station's requests share, for every contract: who may write, the gates
of the approval, and the approval itself. What a request knows about the tables is given by the
caller, together with the reason why it survives the commits of the others.
-/

namespace FuelGrid.Station

open Sql Forecourt

variable {env : StationEnv} {K : Contract (schema env)} {held : Set LockKey} {db : StationDb}
  {n : ℕ} {actor shift : Uuid} {perm : StationPermission} {next : Txn env}

theorem safe_authorizeStation {station : Uuid} {log : List Write}
    (hnx : K.Safe next held log db n) :
    K.Safe (authorizeStation env actor perm station next) held log db n := by
  unfold authorizeStation
  split
  · exact hnx
  · trivial

theorem safe_shiftForWrite {next : Shift → Txn env}
    (hnx : ∀ s db' n', s.id = shift → K.Safe (next s) held [] db' n') :
    K.Safe (shiftForWrite env actor shift perm next) held [] db n := by
  refine safe_reply rfl ?_
  rintro db1 n1 _ _ (_ | s) hfi
  · trivial
  · exact safe_authorizeStation (hnx s db1 _ (key_of_find? hfi).2)

theorem safe_shiftForScopedWrite {basePerm overridePerm : StationPermission}
    {next : Shift → Bool → Txn env}
    (hnx : ∀ s override db' n', s.id = shift → K.Safe (next s override) held [] db' n') :
    K.Safe (shiftForScopedWrite env actor shift basePerm overridePerm next) held [] db n := by
  refine safe_reply rfl ?_
  rintro db1 n1 _ _ (_ | s) hfi
  · trivial
  have hid : s.id = shift := (key_of_find? hfi).2
  dsimp only
  split
  · exact hnx s true db1 _ hid
  split
  · refine safe_reply rfl fun db2 n2 _ _ (onShift : Bool) _ ↦ ?_
    split
    · exact hnx s false db2 _ hid
    · trivial
  · trivial

/-- Past the gates each of them has been seen, in this order, with the commits of others between. -/
theorem safe_approvalGates (hnx : ∀ db1 db2 db3 n', (∃ p, K.rely ⟨held, [], p⟩ db db1) →
      openExceptionCount db1 shift = 0 → (∃ p, K.rely ⟨held, [], p⟩ db1 db2) →
      closingVerificationGateCounts db2.forecourt shift = (0, 0, 0) →
      (∃ p, K.rely ⟨held, [], p⟩ db2 db3) → cashSubmissionAwaitingReceipt db3 shift = false →
      K.Safe next held [] db3 n') : K.Safe (approvalGates env shift next) held [] db n := by
  refine safe_reply rfl fun db1 n1 hr1 _ (count : ℕ) hcnt ↦ ?_
  dsimp only
  split
  · trivial
  next hexc =>
  refine safe_reply rfl
    fun db2 n2 hr2 _ (counts : ℕ × ℕ × ℕ) hcou ↦ ?_
  obtain ⟨unverified, rejected, flagged⟩ := counts
  dsimp only
  split
  · trivial
  next hrej =>
  split
  · trivial
  next hfla =>
  split
  · trivial
  next hunv =>
  refine safe_reply rfl fun db3 n3 hr3 _ (awaiting : Bool) hawa ↦ ?_
  rcases awaiting with _ | _
  · refine hnx db1 db2 db3 _ ⟨_, hr1⟩ ?_ ⟨_, hr2⟩ (hcou.trans ?_) ⟨_, hr3⟩ hawa
    · exact hcnt.trans (Nat.eq_zero_of_not_pos hexc)
    · rw [Nat.eq_zero_of_not_pos hunv, Nat.eq_zero_of_not_pos hrej,
        Nat.eq_zero_of_not_pos hfla]
  · trivial

theorem safe_finishApproval {s : Shift} {I : StationDb → Prop}
    (hI : ∀ {log p db db'}, K.rely ⟨held, log, p⟩ db db' → I db → I db')
    (hs : ∀ {db}, I db → db.forecourt.shifts.find? (·.id = shift) = some s) (h : I db)
    (hcom : ∀ db' n', I db' → K.Safe (.commit (.approved (approve s))) held
      [.forecourt (.setShift (approve s))] db' n') :
    K.Safe (finishApproval env shift) held [] db n := by
  refine safe_query fun db1 n1 _ hr1 _ _ ws r hout ↦ ?_
  have h1 := hI hr1 h
  have hout : loggedUpdate (fun s ↦ .forecourt (.setShift s))
    ((db1.forecourt.shifts.find? (·.id = shift)).map approve) = (ws, r) := hout
  rw [hs h1] at hout
  cases hout
  refine safe_reply rfl fun db2 n2 hr2 _ (posted : Bool) _ ↦ ?_
  rcases posted with _ | _
  · trivial
  refine safe_reply rfl fun db3 n3 hr3 _ (recognized : Bool) _ ↦ ?_
  rcases recognized with _ | _
  · trivial
  · exact hcom db3 _ (hI hr3 (hI hr2 h1))

theorem safe_handleApproveShift {status : String}
    (hnx : ∀ s db' n', db'.forecourt.shifts.find? (·.id = shift) = some s → s.status = .closed →
      K.Safe (approvalGates env shift (finishApproval env shift))
        (insert (.forecourt (.shift shift)) ∅) [] db' n') :
    K.Safe (handleApproveShift env actor shift status) ∅ [] db n := by
  unfold handleApproveShift
  split
  · trivial
  refine safe_shiftForWrite fun s db1 n1 hid ↦ ?_
  subst hid
  split
  · trivial
  split
  · trivial
  refine safe_approvalGates fun _ _ db2 n2 _ _ _ _ _ _ ↦ ?_
  intro db3 n3 _ _ _ _
  refine safe_reply rfl ?_
  rintro db4 n4 _ _ (_ | locked) hlck
  · trivial
  dsimp only
  split
  · trivial
  next hcl => exact hnx locked db4 _ hlck (not_not.mp hcl)

end FuelGrid.Station
