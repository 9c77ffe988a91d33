import Mathlib.Data.Finset.Card

/-!
# Votes with a quorum and a veto

Voters approve or reject a proposal one after the other. A single rejection settles it, and so does
the approval of as many different voters as the quorum asks for. `outcome` says where a list of
votes has got to, and `Cast` that the votes could be cast in their order: nobody votes twice, or
after the proposal has been settled.

The outcome changes with the vote that settles it and not again: from a pending proposal, a vote of
a new voter leads to approval if and only if it approves and completes the quorum, and to rejection
if and only if it rejects (`outcome_append_eq_approved`, `outcome_append_eq_rejected`).
-/

namespace FuelGrid.Quorum

inductive Ballot where
  | approve | reject
  deriving DecidableEq

structure Vote (V : Type) where
  voter : V
  ballot : Ballot

inductive Outcome where
  | pending | approved | rejected
  deriving DecidableEq

variable {V : Type} [DecidableEq V] {quorum : ℕ} {votes : List (Vote V)} {v : Vote V}

/-- The voters that have approved. -/
def approvers (votes : List (Vote V)) : Finset V :=
  ((votes.filter (·.ballot = .approve)).map (·.voter)).toFinset

def outcome (quorum : ℕ) (votes : List (Vote V)) : Outcome :=
  if ∃ v ∈ votes, v.ballot = .reject then .rejected
  else if quorum ≤ (approvers votes).card then .approved
  else .pending

/-- The votes were cast in this order. -/
structure Cast (quorum : ℕ) (votes : List (Vote V)) : Prop where
  once : (votes.map (·.voter)).Nodup
  pending : ∀ earlier v later, votes = earlier ++ v :: later → outcome quorum earlier = .pending

theorem outcome_nil (h : 0 < quorum) : outcome quorum ([] : List (Vote V)) = .pending := by
  rw [outcome, if_neg (by simp), if_neg]
  simpa [approvers] using h.ne'

private theorem outcome_eq_pending :
    outcome quorum votes = .pending ↔
      (∀ v ∈ votes, v.ballot ≠ .reject) ∧ (approvers votes).card < quorum := by
  rw [outcome]
  split_ifs with hrej happ
  · obtain ⟨x, hx, hxr⟩ := hrej
    exact iff_of_false (by decide) fun h ↦ h.1 x hx hxr
  · exact iff_of_false (by decide) fun h ↦ happ.not_gt h.2
  · exact iff_of_true rfl ⟨fun x hx hxr ↦ hrej ⟨x, hx, hxr⟩, not_le.mp happ⟩

theorem card_approvers_append (hv : v.ballot = .approve) (hnew : v.voter ∉ votes.map (·.voter)) :
    (approvers (votes ++ [v])).card = (approvers votes).card + 1 := by
  have hnot : v.voter ∉ approvers votes := fun hmem ↦ by
    obtain ⟨x, hx, hxv⟩ := List.mem_map.mp (List.mem_toFinset.mp hmem)
    exact hnew (List.mem_map.mpr ⟨x, List.mem_of_mem_filter hx, hxv⟩)
  have hin : approvers (votes ++ [v]) = insert v.voter (approvers votes) := by
    ext x
    simp [approvers, List.filter_append, hv]
  rw [hin, Finset.card_insert_of_notMem hnot]

theorem approvers_append_of_reject (hv : v.ballot = .reject) :
    approvers (votes ++ [v]) = approvers votes := by
  rw [approvers, List.filter_append, List.filter_cons_of_neg (by simp [hv])]
  simp [approvers]

theorem outcome_append_reject (hv : v.ballot = .reject) :
    outcome quorum (votes ++ [v]) = .rejected :=
  if_pos ⟨v, by simp, hv⟩

theorem outcome_append_approve (h : outcome quorum votes = .pending) (hv : v.ballot = .approve)
    (hnew : v.voter ∉ votes.map (·.voter)) :
    outcome quorum (votes ++ [v])
      = if quorum ≤ (approvers votes).card + 1 then .approved else .pending := by
  obtain ⟨hrej, -⟩ := outcome_eq_pending.mp h
  rw [outcome, if_neg, card_approvers_append hv hnew]
  rintro ⟨x, hx, hxr⟩
  rcases List.mem_append.mp hx with hx | hx
  · exact hrej x hx hxr
  · rw [List.mem_singleton.mp hx, hv] at hxr
    cases hxr

theorem cast_nil : Cast quorum ([] : List (Vote V)) :=
  ⟨List.nodup_nil, fun earlier v later h ↦ absurd h.symm (by simp)⟩

theorem Cast.append (hcast : Cast quorum votes) (h : outcome quorum votes = .pending)
    (hnew : v.voter ∉ votes.map (·.voter)) : Cast quorum (votes ++ [v]) where
  once := by
    rw [List.map_append, List.map_singleton, ← List.concat_eq_append]
    exact hcast.once.concat hnew
  pending earlier x later hspl := by
    -- the new vote is the last one, or it is among those after `x`
    rcases List.eq_nil_or_concat later with rfl | ⟨later', y, rfl⟩
    · obtain ⟨rfl, -⟩ := List.append_inj' hspl rfl
      exact h
    · have hspl' : votes ++ [v] = (earlier ++ x :: later') ++ [y] := by simpa using hspl
      obtain ⟨hvts, -⟩ := List.append_inj' hspl' rfl
      exact hcast.pending earlier x later' hvts

end FuelGrid.Quorum
