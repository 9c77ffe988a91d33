import FuelGrid.Forecourt.SettledLines

/-!
# A batch of verifications in a race

`handleVerifyShiftReadings` reads the closings of a shift that have no verification, and then
inserts one for each of them. An insert that finds the reading verified in the meantime is passed
over, since the reading is no longer pending. But a failed statement aborts the transaction: what
follows is refused, and nothing of the batch is committed (`not_batchLaw_of_race`).
-/

namespace FuelGrid.Forecourt

open Sql

variable {env : Env} {T : Type} {t : T} {actor : Uuid} {pending : List MeterReading} {db : ShiftDb}
  {a : Act T}

/-- When the batch of `t` has ended it has committed, and then each of its readings is verified. -/
def BatchLaw (t : T) (pending : List MeterReading) (s : State (schema env) T) : Prop :=
  s.prog t = none → ∃ c ∈ s.commits, c.txn = t ∧
    ∀ m ∈ pending, ∃ v ∈ c.after.verifications, v.readingId = m.id

/-- The reading that a change verifies for the first time. -/
def Write.verifies : Write → Option Uuid
  | .insertVerification v => some v.readingId
  | _ => none

/-- The batch is not cut off, and nobody else commits a verification of one of its readings. -/
def Unraced (t : T) (pending : List MeterReading) (s : State (schema env) T) : Act T → Prop
  | .abort u => u ≠ t
  | .run u => u ≠ t → ∀ p ∈ s.prog u, p matches .commit _ →
      ∀ m ∈ pending, ∀ w ∈ s.log u, w.verifies ≠ some m.id

instance [DecidableEq T] (s : State (schema env) T) (a : Act T) :
    Decidable (Unraced t pending s a) :=
  match a with
  | .abort u => inferInstanceAs (Decidable (u ≠ t))
  | .run u => inferInstanceAs (Decidable (u ≠ t → ∀ p ∈ s.prog u, p matches .commit _ →
      ∀ m ∈ pending, ∀ w ∈ s.log u, w.verifies ≠ some m.id))

/-! ## The readings stay unverified

The others can do anything else: the readings of the snapshot stay without verification until the
batch inserts one. -/

/-- None of the readings has a verification. -/
def Unverified (pending : List MeterReading) (db : ShiftDb) : Prop :=
  ∀ m ∈ pending, ∀ v ∈ db.verifications, v.readingId ≠ m.id

theorem Unverified.replay {log : List Write} (h : Unverified pending db)
    (hlog : ∀ m ∈ pending, ∀ w ∈ log, w.verifies ≠ some m.id) :
    Unverified pending (replay (S := schema env) db log) := by
  induction log generalizing db with
  | nil => exact h
  | cons w ws ih =>
    refine ih ?_ fun m hm w' hw' ↦ hlog m hm w' (mem_cons_of_mem w hw')
    intro m hm v hv
    have hw := hlog m hm w mem_cons_self
    cases w with
    | insertVerification v' =>
      rcases mem_snoc.mp hv with hv | rfl
      · exact h m hm v hv
      · exact fun hid ↦ hw (congrArg some hid)
    | setVerification v' =>
      -- the row that is replaced has the same reading
      obtain ⟨v0, hv0, rfl⟩ := mem_map.mp hv
      split
      next heq => exact heq ▸ h m hm v0 hv0
      · exact h m hm v0 hv0
    | _ => exact h m hm v hv

section Insert

variable {m : MeterReading} (hfit : m.reading < 10 ^ 14)

include hfit

/-- A figure that was read from its column is stored as it is. -/
theorem figures_verdict :
    (m.verdict .approved none actor).figures = some (m.reading, none, m.reading) := by
  have huni : (m.reading : ℚ) / 10 ^ 3 * 10 ^ 3 = m.reading := div_mul_cancel₀ _ (by norm_num)
  have hsto : store 14 3 ((m.reading : ℚ) / 10 ^ 3) = some m.reading := by
    rw [store, huni, roundHalfAway_intCast, if_pos (by rwa [abs_of_nonneg m.value])]
  simp only [VerificationInput.figures, MeterReading.verdict, storeNullable, bind, Option.bind,
    hsto]
  rfl

private theorem exists_insertVerification (actor : Uuid)
    (hfr : ∀ v ∈ db.verifications, v.readingId ≠ m.id) :
    ∃ v, insertVerification db (m.verdict .approved none actor) = .ok v ∧ v.readingId = m.id := by
  unfold insertVerification VerificationInput.row
  rw [figures_verdict hfit]
  dsimp only
  rw [dif_pos (.inl rfl), dif_pos (.inl nofun), dif_pos ⟨m.value, m.value⟩]
  exact ⟨_, if_neg fun ⟨v', hv', hid'⟩ ↦ hfr v' hv' hid', rfl⟩

end Insert

/-! ## The batch

The batch does what it is for when nobody verifies one of its readings while it runs. -/

/-- The batch has inserted the verifications `vs` and goes on with the readings `rest`. -/
structure Underway (t : T) (actor : Uuid) (pending : List MeterReading) (vs : List Verification)
    (rest : List MeterReading) (s : State (schema env) T) : Prop where
  unverified : Unverified pending s.db
  log : s.log t = vs.map .insertVerification
  ids : pending.map (·.id) = vs.map (·.readingId) ++ rest.map (·.id)
  sub : rest ⊆ pending
  /-- It is at the next lock, or past it. -/
  prog : ∃ count, s.prog t = some (verifyPending env actor rest count) ∨
    ∃ key next, verifyPending env actor rest count = .lock key next ∧ s.prog t = some next

/-- The batch is under way or has ended as it should. -/
def Fulfils (t : T) (actor : Uuid) (pending : List MeterReading) (s : State (schema env) T) :
    Prop :=
  (∃ vs rest, Underway t actor pending vs rest s) ∨ s.prog t = none ∧ BatchLaw t pending s

variable [DecidableEq T] {s s' : State (schema env) T}

theorem Fulfils.other (h : Fulfils t actor pending s) (hC : Unraced t pending s a)
    (hrun : a ≠ .run t) (hst : s.step a = some s') : Fulfils t actor pending s' := by
  have habo : a ≠ .abort t := by
    rintro rfl
    exact hC rfl
  obtain ⟨hprog, hlog⟩ := State.step_other hst hrun habo
  rcases h with ⟨vs, rest, h⟩ | ⟨hend, hlaw⟩
  · refine .inl ⟨vs, rest, ?_, hlog.trans h.log, h.ids, h.sub, hprog ▸ h.prog⟩
    rcases State.step_db hst with ⟨hdb, -⟩ | ⟨u, r, rfl, hu, hdb, -⟩
    · exact hdb ▸ h.unverified
    · have hne : u ≠ t := fun heq ↦ hrun (heq ▸ rfl)
      rw [hdb]
      exact h.unverified.replay (hC hne _ hu rfl)
  · refine .inr ⟨hprog.trans hend, fun _ ↦ ?_⟩
    obtain ⟨c, hc, hlaw⟩ := hlaw hend
    refine ⟨c, ?_, hlaw⟩
    rcases State.step_db hst with ⟨-, hcom⟩ | ⟨u, r, -, -, -, hcom⟩
    · exact hcom ▸ hc
    · exact hcom ▸ mem_cons_of_mem _ hc

theorem Underway.own {vs : List Verification} {rest : List MeterReading}
    (hks : (pending.map (·.id)).Nodup) (hfit : ∀ m ∈ pending, m.reading < 10 ^ 14)
    (h : Underway t actor pending vs rest s) (hst : s.step (.run t) = some s') :
    Fulfils t actor pending s' := by
  obtain ⟨count, hp | ⟨key, next, hnx, hp⟩⟩ := h.prog
  · rcases rest with _ | ⟨m, rest⟩ <;> rw [verifyPending] at hp <;>
      simp only [State.step, hp] at hst
    · cases hst
      refine .inr ⟨update_self _ _ _, fun _ ↦ ⟨_, mem_cons_self, rfl, fun m hm ↦ ?_⟩⟩
      have hids : pending.map (·.id) = vs.map (·.readingId) := by simpa using h.ids
      obtain ⟨v, hv, hid⟩ := mem_map.mp (hids ▸ mem_map_of_mem hm)
      change ∃ v ∈ (replay (S := schema env) s.db (s.log t)).verifications, v.readingId = m.id
      rw [h.log, replay_insertVerifications]
      exact ⟨v, mem_append_right _ hv, hid⟩
    · split at hst <;> cases hst
      exact .inl ⟨vs, m :: rest, h.unverified, h.log, h.ids, h.sub, count,
        .inr ⟨_, _, rfl, update_self _ _ _⟩⟩
  · rcases rest with _ | ⟨m, rest⟩ <;> cases hnx
    simp only [State.step, hp] at hst
    have hvw : s.view t = { s.db with verifications := s.db.verifications ++ vs } := by
      rw [State.view, h.log, replay_insertVerifications]
    have hm : m ∈ pending := h.sub mem_cons_self
    have hfr : ∀ v ∈ (s.view t).verifications, v.readingId ≠ m.id := by
      rw [hvw]
      intro v hv hid
      rcases mem_append.mp hv with hv | hv
      · exact h.unverified m hm v hv hid
      · rw [h.ids] at hks
        exact (nodup_append.mp hks).2.2 _ (mem_map_of_mem hv) _ mem_cons_self hid
    obtain ⟨v, hins, hid⟩ := exists_insertVerification (hfit m hm) actor hfr
    have hexec : exec env (.insertVerification (m.verdict .approved none actor)) s.db
        (s.view t) s.stamp = ([.insertVerification v], .ok v) := by
      change logged _ _ = _
      rw [hins]
      rfl
    rw [hexec] at hst
    cases hst
    refine .inl ⟨vs ++ [v], rest, h.unverified, ?_, ?_, fun _ h' ↦ h.sub (mem_cons_of_mem m h'),
      count + 1, .inl (update_self _ _ _)⟩
    · exact (update_self _ _ _).trans (by rw [h.log, map_append]; rfl)
    · rw [h.ids, map_append, append_assoc, map_cons, map_singleton, hid]
      rfl

theorem Fulfils.step (hks : (pending.map (·.id)).Nodup)
    (hfit : ∀ m ∈ pending, m.reading < 10 ^ 14) (h : Fulfils t actor pending s)
    (hC : Unraced t pending s a) (hst : s.step a = some s') : Fulfils t actor pending s' := by
  by_cases hrun : a = .run t
  · subst hrun
    rcases h with ⟨vs, rest, h⟩ | ⟨hend, -⟩
    · exact h.own hks hfit hst
    · simp [State.step, hend] at hst
  · exact h.other hC hrun hst

/-- The batch of `t` has just read its snapshot. -/
structure Begun (t : T) (actor shift : Uuid) (s : State (schema env) T) : Prop where
  log : s.log t = []
  prog : s.prog t = some (verifyPending env actor (unverifiedClosing s.db shift) 0)

/-- If nobody else verifies one of the readings of its snapshot while the batch runs, it commits a
verification for each of them. The readings have a key and fit their column. -/
theorem batchLaw_of_unraced {shift : Uuid} (hkeys : (s.db.readings.map (·.id)).Nodup)
    (hfit : ∀ m ∈ s.db.readings, m.reading < 10 ^ 14) (hbegun : Begun t actor shift s)
    (h : Reach (Unraced t (unverifiedClosing s.db shift)) s s') :
    BatchLaw t (unverifiedClosing s.db shift) s' := by
  have hsub : List.Sublist (unverifiedClosing s.db shift) s.db.readings := filter_sublist
  have hsta : Fulfils t actor (unverifiedClosing s.db shift) s := by
    refine .inl ⟨[], _, fun m hm v hv hid ↦ ?_, hbegun.log, rfl, List.Subset.refl _, 0,
      .inl hbegun.prog⟩
    have hno := of_decide_eq_true (mem_filter.mp hm).2
    exact hno.2.2.2 ⟨v, hv, hid⟩
  have hend : Fulfils t actor (unverifiedClosing s.db shift) s' := by
    induction h with
    | refl => exact hsta
    | step a _ hC hst ih =>
      exact ih.step (hkeys.sublist (hsub.map _)) (fun m hm ↦ hfit m (hsub.subset hm)) hC hst
  rcases hend with ⟨vs, rest, h⟩ | ⟨-, hlaw⟩
  · intro hno
    obtain ⟨count, hp | ⟨key, next, -, hp⟩⟩ := h.prog <;> rw [hno] at hp <;> cases hp
  · exact hlaw

def twoClosings : ShiftDb :=
  { readShift with readings := readShift.readings ++
      [⟨12, 0, 2, .closing, 300000, 7, none, .active, by decide⟩] }

def batchAndApproval : State (schema smallEnv) Bool :=
  State.init (S := schema smallEnv) twoClosings 20 fun
    | true => handleVerifyShiftReadings smallEnv 8 0
    | false => handleApproveReading smallEnv 8 0 9

def snapshotTaken : State (schema smallEnv) Bool :=
  (batchAndApproval.runs (fun _ _ ↦ True) (turns [(true, 2)])).getD batchAndApproval

private theorem reach_snapshotTaken :
    Reach (fun _ _ ↦ True) batchAndApproval snapshotTaken ∧ Begun true 8 0 snapshotTaken := by
  have hrun : batchAndApproval.runs (fun _ _ ↦ True) (turns [(true, 2)]) = some snapshotTaken := rfl
  exact ⟨.of_runs hrun, rfl, rfl⟩

/-- The approval commits after the snapshot: the batch fails, and the other closing stays without
verification. -/
theorem not_batchLaw_of_race : ∃ s s' : State (schema smallEnv) Bool,
    Reach (fun _ _ ↦ True) batchAndApproval s ∧ Begun true 8 0 s ∧ Reach (fun _ _ ↦ True) s s' ∧
      s'.db.verifications.map (·.readingId) = [9] ∧
      ¬BatchLaw true (unverifiedClosing s.db 0) s' := by
  obtain ⟨hrch, hbeg⟩ := reach_snapshotTaken
  have hrun : ∃ s', Reach (fun _ _ ↦ True) snapshotTaken s' ∧
      s'.db.verifications.map (·.readingId) = [9] ∧ (s'.prog true).isNone ∧
      ∀ c ∈ s'.commits, c.txn ≠ true :=
    exists_of_runs (turns [(false, 5), (true, 3)]) (by decide +kernel)
  obtain ⟨s', hrch', hver, hend, hno⟩ := hrun
  refine ⟨snapshotTaken, s', hrch, hbeg, hrch', hver, fun hlaw ↦ ?_⟩
  obtain ⟨c, hc, htxn, -⟩ := hlaw (Option.isNone_iff_eq_none.mp hend)
  exact hno c hc htxn

/-- The approval comes after the inserts of the batch and is refused. -/
theorem batchLaw_of_unraced_inTurn : ∃ s s' : State (schema smallEnv) Bool,
    Reach (fun _ _ ↦ True) batchAndApproval s ∧ Begun true 8 0 s ∧
      Reach (Unraced true (unverifiedClosing s.db 0)) s s' ∧ (∀ t, s'.prog t = none) ∧
      BatchLaw true (unverifiedClosing s.db 0) s' := by
  obtain ⟨hrch, hbeg⟩ := reach_snapshotTaken
  have hrun : ∃ s', Reach (Unraced true (unverifiedClosing snapshotTaken.db 0)) snapshotTaken s' ∧
      ∀ t, (s'.prog t).isNone :=
    exists_of_runs (turns [(false, 2), (true, 5), (false, 4)]) (by decide +kernel)
  obtain ⟨s', hrch', hend⟩ := hrun
  exact ⟨snapshotTaken, s', hrch, hbeg, hrch',
    fun t ↦ Option.isNone_iff_eq_none.mp (hend t),
    batchLaw_of_unraced (by decide) (by decide) hbeg hrch'⟩

end FuelGrid.Forecourt
