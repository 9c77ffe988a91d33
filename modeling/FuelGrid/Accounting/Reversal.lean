import FuelGrid.Accounting.JournalSafety

/-!
# Reversals

However reversals interleave, an entry has at most one, it is marked reversed exactly when it has
one, and nothing else of a committed row ever changes. The read at the start of `ReverseEntry` does
not ensure this; the immutability trigger does, on the row that the update has locked.

That an entry and its reversal cancel on every account fails for one reason: the difference of
`NaN` and `NaN` is `NaN` (`not_reversalLaw_of_nan`).
-/

namespace FuelGrid.Accounting

open Sql

variable {chart : Chart} {T : Type}

def netOn (lines : List JournalLine) (account : Uuid) : Money :=
  ((lines.filter (·.accountId = account)).map fun l ↦ l.debit - l.credit).sum

/-- What reversals guarantee in a reached state. -/
structure ReversalLaw (s : State (schema chart) T) : Prop where
  /-- An entry is the target of at most one committed reversal. -/
  unique : ∀ r ∈ s.db.entries, ∀ r' ∈ s.db.entries, ∀ i, r.reversesEntryId = some i →
    r'.reversesEntryId = some i → r = r'
  cancel : ∀ e ∈ s.db.entries, ∀ r ∈ s.db.entries, r.reversesEntryId = some e.id → ∀ account,
    netOn (linesOf s.db.lines e.id ++ linesOf s.db.lines r.id) account = 0
  /-- An entry is reversed exactly when its reversal is committed. -/
  reversed : ∀ e ∈ s.db.entries,
    e.status = .reversed ↔ ∃ r ∈ s.db.entries, r.reversesEntryId = some e.id
  /-- No commit changed a committed row, other than by this annotation. -/
  frozen : ∀ c ∈ s.commits, Frozen c.before c.after

def ReversedLinesFinite (db : AccountingDb) : Prop :=
  ∀ e ∈ db.entries, e.status = .reversed → ∀ l ∈ linesOf db.lines e.id, l.debit ≠ ⊤ ∧ l.credit ≠ ⊤
  deriving Decidable

theorem netOn_append (lines lines' : List JournalLine) (account : Uuid) :
    netOn (lines ++ lines') account = netOn lines account + netOn lines' account := by
  rw [netOn, filter_append, map_append, sum_append]
  rfl

theorem netOn_cons (l : JournalLine) (lines : List JournalLine) (account : Uuid) :
    netOn (l :: lines) account
      = (if l.accountId = account then l.debit - l.credit else 0) + netOn lines account := by
  unfold netOn
  split
  next h => rw [List.filter_cons_of_pos (by simpa using h), map_cons, sum_cons]
  next h => rw [filter_cons_of_neg (by simpa using h), zero_add]

private theorem netOn_swap (lines : List JournalLine) (rev account : Uuid) :
    netOn (lines.map (·.swap rev)) account = -netOn lines account := by
  rw [netOn, filter_map, map_map, netOn, ← sum_map_neg]
  refine congrArg List.sum (map_congr_left fun l _ ↦ ?_)
  exact (neg_sub l.debit l.credit).symm

/-- Lines and their swapped copies cancel unless one of them is `NaN`. -/
theorem netOn_append_swap_eq_zero_iff (lines : List JournalLine) (rev : Uuid) :
    (∀ account, netOn (lines ++ lines.map (·.swap rev)) account = 0) ↔
      ∀ l ∈ lines, l.debit ≠ ⊤ ∧ l.credit ≠ ⊤ := by
  have hone : ∀ account, netOn (lines ++ lines.map (·.swap rev)) account = 0 ↔
      ∀ l ∈ lines, l.accountId = account → l.debit ≠ ⊤ ∧ l.credit ≠ ⊤ := by
    intro account
    have hsum : netOn (lines ++ lines.map (·.swap rev)) account
        = netOn lines account + -netOn lines account := by
      rw [← netOn_swap lines rev, netOn_append]
    rw [hsum, LinearOrderedAddCommGroupWithTop.add_neg_cancel_iff_ne_top, netOn, sum_map_ne_top]
    simp [mem_filter, WithTop.LinearOrderedAddCommGroup.sub_eq_top_iff]
  constructor
  · exact fun h l hl ↦ (hone l.accountId).mp (h l.accountId) l hl rfl
  · exact fun h account ↦ (hone account).mpr fun l hl _ ↦ h l hl

/-- In every state that postings and reversals reach, in any interleaving, the law holds exactly
when no reversed entry has a `NaN` line. -/
theorem reversalLaw_iff_reversedLinesFinite [DecidableEq T] (chart : Chart)
    (periods : List Period) (n : ℕ) (ops : T → Op) {s : State (schema chart) T}
    (hreach : Reach (fun _ _ ↦ True) (openingState chart periods n ops) s) :
    ReversalLaw s ↔ ReversedLinesFinite s.db := by
  obtain ⟨hinv, hfro⟩ := journalInv_of_reach (op_amounts_true ops) hreach
  -- the reversal of an entry is the one it names
  have hpair : ∀ e ∈ s.db.entries, ∀ r ∈ s.db.entries, r.reversesEntryId = some e.id →
      e.status = .reversed ∧ Swapped s.db.lines e.id r.id := by
    intro e he r hr hrev
    obtain ⟨e', he', hid, hby⟩ := hinv.reverses r hr e.id hrev
    obtain rfl := eq_of_id_eq hinv.nodup he' he hid
    rcases hinv.status e' he' with ⟨-, hno⟩ | ⟨hst, r', -, hby', -, hswap⟩
    · rw [hno] at hby
      cases hby
    · rw [hby] at hby'
      rw [some.inj hby']
      exact ⟨hst, hswap⟩
  have hree : ∀ e ∈ s.db.entries,
      e.status = .reversed ↔ ∃ r ∈ s.db.entries, r.reversesEntryId = some e.id := by
    intro e he
    refine ⟨fun hst ↦ ?_, fun ⟨r, hr, hrev⟩ ↦ (hpair e he r hr hrev).1⟩
    rcases hinv.status e he with ⟨hpd, -⟩ | ⟨-, r, hr, -, hrev, -⟩
    · rw [hpd] at hst
      cases hst
    · exact ⟨r, hr, hrev⟩
  constructor
  · intro h e he hst
    obtain ⟨r, hr, hrev⟩ := (hree e he).mp hst
    have hcan := h.cancel e he r hr hrev
    rw [(hpair e he r hr hrev).2] at hcan
    exact (netOn_append_swap_eq_zero_iff _ r.id).mp hcan
  · intro h
    refine ⟨fun r hr r' hr' i hrev hrev' ↦ ?_, fun e he r hr hrev ↦ ?_, hree, hfro⟩
    · obtain ⟨e, he, hid, hby⟩ := hinv.reverses r hr i hrev
      obtain ⟨e', he', hid', hby'⟩ := hinv.reverses r' hr' i hrev'
      obtain rfl := eq_of_id_eq hinv.nodup he he' (hid.trans hid'.symm)
      exact eq_of_id_eq hinv.nodup hr hr' (some.inj (hby.symm.trans hby'))
    · obtain ⟨hst, hswap⟩ := hpair e he r hr hrev
      rw [hswap]
      exact (netOn_append_swap_eq_zero_iff _ r.id).mpr (h e he hst)

/-- `NaN` moved to the cash account and back leaves `NaN` on it. -/
theorem not_reversalLaw_of_nan :
    ∃ s : State (schema smallChart) Unit,
      Reach (fun _ _ ↦ True) (openingState smallChart [smallPeriod .opened] 1 fun _ ↦
        .journal 0 [smallPost 20 1 2 .nan false, .reverse 2 0 none]) s ∧
      ¬ReversalLaw s := by
  refine exists_and_imp
    (fun s ↦ ∃ e ∈ s.db.entries, ∃ r ∈ s.db.entries, r.reversesEntryId = some e.id ∧
      netOn (linesOf s.db.lines e.id ++ linesOf s.db.lines r.id) 1 = ⊤)
    (exists_of_runs (turns [((), 20)]) (by decide +kernel)) ?_
  rintro _ _ ⟨e, he, r, hr, hrev, hnet⟩
  intro h
  rw [h.cancel e he r hr hrev 1] at hnet
  exact WithTop.zero_ne_top hnet

/-- A sale, and two transactions that both read it as posted and reverse it. -/
def twoReversals : Fin 3 → Op
  | 0 => .journal 0 [smallPost 20 1 3 (.finite 100) false]
  | _ => .journal 0 [.reverse 2 0 none]

/-- The trigger refuses the second one. -/
theorem reversalLaw_iff_reversedLinesFinite_race :
    ∃ s : State (schema smallChart) (Fin 3),
      Reach (fun _ _ ↦ True) (openingState smallChart [smallPeriod .opened] 1 twoReversals) s ∧
      (s.db.entries.length = 2 ∧ s.commits.length = 2 ∧ ∀ t, s.prog t = none) ∧ ReversalLaw s := by
  refine exists_and_imp
    (fun s ↦ (s.db.entries.length = 2 ∧ s.commits.length = 2 ∧ ∀ t, (s.prog t).isNone) ∧
      ReversedLinesFinite s.db)
    (exists_of_runs (turns [(0, 7), (1, 6), (2, 6), (1, 8), (2, 4)]) (by decide +kernel)) ?_
  rintro _ hrch ⟨⟨hents, hcom, hend⟩, hfin⟩
  exact ⟨⟨hents, hcom, fun t ↦ Option.isNone_iff_eq_none.mp (hend t)⟩,
    (reversalLaw_iff_reversedLinesFinite smallChart _ 1 twoReversals hrch).mpr hfin⟩

end FuelGrid.Accounting
