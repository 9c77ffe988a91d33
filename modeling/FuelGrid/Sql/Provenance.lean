import FuelGrid.Sql.Embed

/-!
# Where a row comes from

A reached state can be traced back along its run. A row is one of the initial rows or was inserted
by a commit (`Reach.exists_origin`), what a transaction committed is what its program can answer
(`Reach.answers_init`), and a transaction that starts with a statement executed it in some state
that the run has passed (`Reach.exists_first`), where the condition on steps held.
-/

namespace FuelGrid.Sql

variable {S : Schema} {T : Type} [DecidableEq T] {W : List S.Write → Except S.Error S.Result → Prop}
  {t : T} {C : State S T → Act T → Prop} {db0 : S.Db} {n0 : ℕ} {prog : T → Prog S} {s : State S T}
  {a : Act T}

/-- What a step of the machine is for the transaction `t`. -/
inductive State.Moves (s s' : State S T) (a : Act T) (t : T) : Prop
  /-- Another transaction takes the step. -/
  | other : s'.prog t = s.prog t → s'.log t = s.log t →
      (∀ c ∈ s'.commits, c.txn = t → c ∈ s.commits) → Moves s s' a t
  /-- It is rolled back. -/
  | ends : s'.prog t = none → s'.commits = s.commits → Moves s s' a t
  | commits (r : S.Result) : s.prog t = some (.commit r) → s'.prog t = none →
      s'.commits = ⟨t, r, s.db, s.log t⟩ :: s.commits → Moves s s' a t
  | locks (k : S.Key) (next : Prog S) : s.prog t = some (.lock k next) → s'.prog t = some next →
      s'.log t = s.log t → s'.commits = s.commits → Moves s s' a t
  | queries (q : S.Query) (next : S.Reply q → Prog S) :
    a = .run t → s.prog t = some (.query q next) →
      s'.prog t = some (next (S.exec q s.db (s.view t) s.stamp).2) →
      s'.log t = s.log t ++ (S.exec q s.db (s.view t) s.stamp).1 → s'.commits = s.commits →
      Moves s s' a t

namespace State

private theorem moves_finish (s : State S T) (a : Act T) (t u : T) : s.Moves (s.finish t) a u := by
  by_cases hu : u = t
  · exact .ends (by simp [finish, hu]) rfl
  · exact .other (by simp [finish, update_of_ne hu])
      (by simp [finish, update_of_ne hu]) fun c hc _ ↦ hc

private theorem moves_of_step {s s' : State S T} (h : s.step a = some s') (u : T) :
    s.Moves s' a u := by
  obtain ⟨t, rfl⟩ | ⟨t, r, rfl, hp, rfl⟩ |
      ⟨t, k, next, rfl, hp, -, rfl⟩ | ⟨t, q, next, rfl, hp, rfl⟩ :=
    step_cases h
  · exact moves_finish s a t u
  · by_cases hu : u = t
    · subst hu
      exact .commits r hp (by simp [finish]) rfl
    · refine .other (by simp [finish, update_of_ne hu])
        (by simp [finish, update_of_ne hu]) fun c hc hcu ↦ ?_
      rcases mem_cons.mp hc with rfl | hc
      · exact absurd hcu.symm hu
      · exact hc
  · by_cases hu : u = t
    · subst hu
      exact .locks k next hp (by simp) rfl rfl
    · exact .other (by simp [update_of_ne hu]) rfl fun c hc _ ↦ hc
  · by_cases hu : u = t
    · subst hu
      exact .queries q next rfl hp (by simp) (by simp) rfl
    · exact .other (by simp [update_of_ne hu]) (by simp [update_of_ne hu])
        fun c hc _ ↦ hc

/-- The transaction will answer with `W`, or has done so. -/
structure Answering (W : List S.Write → Except S.Error S.Result → Prop) (s : State S T) (t : T) :
    Prop where
  running : ∀ p, s.prog t = some p → p.Answers W (s.log t)
  ended : ∀ c ∈ s.commits, c.txn = t → W c.writes (.ok c.result)

theorem Answering.step {s s' : State S T} (h : s.Answering W t) (hst : s.step a = some s') :
    s'.Answering W t := by
  rcases moves_of_step hst t with ⟨hprog, hlog, hcom⟩ | ⟨hprog, hcom⟩ |
    ⟨r, hp, hprog, hcom⟩ | ⟨k, next, hp, hprog, hlog, hcom⟩ |
    ⟨q, next, -, hp, hprog, hlog, hcom⟩
  · refine ⟨fun p hp ↦ ?_, fun c hc hct ↦ h.ended c (hcom c hc hct) hct⟩
    rw [hlog]
    exact h.running p (hprog ▸ hp)
  · refine ⟨fun p hp ↦ ?_, hcom ▸ h.ended⟩
    rw [hprog] at hp
    cases hp
  · refine ⟨fun p hp ↦ ?_, fun c hc hct ↦ ?_⟩
    · rw [hprog] at hp
      cases hp
    · rw [hcom] at hc
      rcases mem_cons.mp hc with rfl | hc
      · exact h.running _ hp
      · exact h.ended c hc hct
  · refine ⟨fun p hp' ↦ ?_, hcom ▸ h.ended⟩
    rw [hprog] at hp'
    cases hp'
    rw [hlog]
    have hlock := h.running _ hp
    exact hlock
  · refine ⟨fun p hp' ↦ ?_, hcom ▸ h.ended⟩
    rw [hprog] at hp'
    cases hp'
    rw [hlog]
    exact h.running _ hp s.db (s.view t) s.stamp

end State

/-- A log has the changes that the statements of its program can write. -/
theorem Prog.answers_of_each {P : S.Write → Prop} {held : Set S.Key}
    {log : List S.Write} {p : Prog S}
    (h : p.Each (fun _ q ↦ ∀ committed view n, ∀ w ∈ (S.exec q committed view n).1, P w) held)
    (hlog : ∀ w ∈ log, P w) : p.Answers (fun ws _ ↦ ∀ w ∈ ws, P w) log := by
  induction p generalizing held log with
  | commit a => exact hlog
  | rollback e => exact hlog
  | lock k next ih => exact ih h hlog
  | query q next ih =>
    intro committed view n
    exact ih _ (h.2 _) (forall_mem_append.mpr ⟨hlog, h.1 committed view n⟩)

theorem Reach.answering {s1 : State S T} (h : Reach C s1 s) (h1 : s1.Answering W t) :
    s.Answering W t := by
  induction h with
  | refl => exact h1
  | step a _ _ hst ih => exact ih.step hst

/-- A commit has written and answered what its program can. -/
theorem Reach.answers_init (h : Reach C (State.init db0 n0 prog) s)
    (hprog : (prog t).Answers W []) : ∀ c ∈ s.commits, c.txn = t → W c.writes (.ok c.result) := by
  refine (h.answering (t := t) ⟨fun p hp ↦ ?_, nofun⟩).ended
  obtain rfl : prog t = p := by simpa [State.init] using hp
  exact hprog

/-- The transaction has written nothing yet. -/
structure State.Untouched (s : State S T) (t : T) : Prop where
  log : s.log t = []
  commits : ∀ c ∈ s.commits, c.txn ≠ t

/-- A transaction is untouched as long as a statement is next that only its start executes. -/
theorem Reach.untouched {q q' : S.Query} {next : S.Reply q → Prog S} {next' : S.Reply q' → Prog S}
    (h : Reach C (State.init db0 n0 prog) s) (first : S.Query → Prop)
    (hprog : prog t = .query q next)
    (hnx : ∀ r, ∃ held, (next r).Each (fun _ q ↦ ¬first q) held)
    (hp : s.prog t = some (.query q' next')) (hq : first q') : s.Untouched t := by
  suffices hcas : s.prog t = some (.query q next) ∧ s.Untouched t ∨
      ∀ p, s.prog t = some p → ∃ held, p.Each (fun _ q ↦ ¬first q) held by
    rcases hcas with ⟨-, hun⟩ | heach
    · exact hun
    · obtain ⟨held, hno, -⟩ := heach _ hp
      exact absurd hq hno
  clear hp
  induction h with
  | refl => exact .inl ⟨congrArg some hprog, rfl, nofun⟩
  | step a _ _ hst ih =>
    rcases State.moves_of_step hst t with ⟨hpro', hlog, hcom⟩ | ⟨hpro', -⟩ | ⟨r, -, hpro', -⟩ |
      ⟨k, next', hp, hpro', -, -⟩ | ⟨q', next', -, hp, hpro', -, -⟩
    · rw [hpro']
      exact ih.imp_left fun ⟨hp, hun⟩ ↦
        ⟨hp, hlog.trans hun.log, fun c hc hct ↦ hun.commits c (hcom c hc hct) hct⟩
    · exact .inr fun p hp ↦ by cases hpro'.symm.trans hp
    · exact .inr fun p hp ↦ by cases hpro'.symm.trans hp
    · refine .inr fun p hp' ↦ ?_
      cases hpro'.symm.trans hp'
      rcases ih with ⟨hfst, -⟩ | heach
      · cases hp.symm.trans hfst
      · obtain ⟨held, hall⟩ := heach _ hp
        exact ⟨_, hall⟩
    · refine .inr fun p hp' ↦ ?_
      cases hpro'.symm.trans hp'
      rcases ih with ⟨hfst, -⟩ | heach
      · cases hp.symm.trans hfst
        exact hnx _
      · obtain ⟨held, -, hall⟩ := heach _ hp
        exact ⟨held, hall _⟩

theorem State.stamp_le_of_step {s s' : State S T} (h : s.step a = some s') :
    s.stamp ≤ s'.stamp := by
  obtain ⟨t, rfl⟩ | ⟨t, r, -, -, rfl⟩ | ⟨t, k, next, -, -, -, rfl⟩ | ⟨t, q, next, -, -, rfl⟩ :=
    step_cases h
  · exact le_rfl
  · exact le_rfl
  · exact le_rfl
  · exact Nat.le_succ _

/-- The rows that a transaction writes have ids that were drawn after it was untouched. -/
theorem Reach.le_of_untouched {ids : S.Write → List ℕ} (hids : DrawsStamp ids) {s1 : State S T}
    (h : Reach C s1 s) (h1 : s1.Untouched t) :
    ∀ c ∈ s.commits, c.txn = t → ∀ w ∈ c.writes, ∀ i ∈ ids w, s1.stamp ≤ i := by
  suffices hinv : s1.stamp ≤ s.stamp ∧
      (∀ p, s.prog t = some p → ∀ w ∈ s.log t, ∀ i ∈ ids w, s1.stamp ≤ i) ∧
      ∀ c ∈ s.commits, c.txn = t → ∀ w ∈ c.writes, ∀ i ∈ ids w, s1.stamp ≤ i from hinv.2.2
  induction h with
  | refl =>
    refine ⟨le_rfl, fun _ _ w hw ↦ ?_, fun c hc hct ↦ absurd hct (h1.commits c hc)⟩
    rw [h1.log] at hw
    cases hw
  | step a _ _ hst ih =>
    obtain ⟨hle, hlog, hcom⟩ := ih
    refine ⟨hle.trans (State.stamp_le_of_step hst), ?_⟩
    rcases State.moves_of_step hst t with ⟨hpro', hlog', hcom'⟩ | ⟨hpro', hcom'⟩ |
      ⟨r, hp, hpro', hcom'⟩ | ⟨k, next, hp, -, hlog', hcom'⟩ | ⟨q, next, -, hp, -, hlog', hcom'⟩
    · rw [hpro', hlog']
      exact ⟨hlog, fun c hc hct ↦ hcom c (hcom' c hc hct) hct⟩
    · rw [hpro', hcom']
      exact ⟨nofun, hcom⟩
    · rw [hpro', hcom']
      refine ⟨nofun, fun c hc hct ↦ ?_⟩
      rcases mem_cons.mp hc with rfl | hc
      · exact hlog _ hp
      · exact hcom c hc hct
    · rw [hlog', hcom']
      exact ⟨fun _ _ ↦ hlog _ hp, hcom⟩
    · rw [hlog', hcom']
      refine ⟨fun _ _ w hw i hi ↦ ?_, hcom⟩
      rcases mem_append.mp hw with hw | hw
      · exact hlog _ hp w hw i hi
      · exact hids _ _ _ _ w hw i hi ▸ hle

/-- If every commit continues the rows it finds or inserts new ones, then every row of a reached
state continues an initial row or one that was inserted. -/
theorem Reach.exists_origin {R : Type} (rows : S.Db → List R) (Continues : R → R → Prop)
    (Inserted : Commit S T → R → Prop) (h : Reach C (State.init db0 n0 prog) s)
    (hrefl : ∀ x, Continues x x)
    (htra : ∀ {x y z}, Continues x y → Continues y z → Continues x z)
    (hcom : ∀ c ∈ s.commits, ∀ x ∈ rows c.after,
      (∃ x0 ∈ rows c.before, Continues x0 x) ∨ Inserted c x) :
    ∀ x ∈ rows s.db, (∃ x0 ∈ rows db0, Continues x0 x) ∨
      ∃ c ∈ s.commits, ∃ x0, Inserted c x0 ∧ Continues x0 x := by
  induction h with
  | refl => exact fun x hx ↦ .inl ⟨x, hx, hrefl x⟩
  | step a _ _ hst ih =>
    rcases State.step_db hst with ⟨hdb, hcomm⟩ | ⟨t, r, -, -, hdb, hcomm⟩
    · rw [hcomm] at hcom ⊢
      rw [hdb]
      exact ih hcom
    · rw [hcomm] at hcom ⊢
      obtain ⟨hlast, hear⟩ := forall_mem_cons.mp hcom
      intro x hx
      rw [hdb] at hx
      rcases hlast x hx with ⟨y, hy, hyx⟩ | hnew
      · rcases ih hear y hy with ⟨x0, hx0, hc⟩ | ⟨c, hc, x0, hins, hcont⟩
        · exact .inl ⟨x0, hx0, htra hc hyx⟩
        · exact .inr ⟨c, mem_cons_of_mem _ hc, x0, hins, htra hcont hyx⟩
      · exact .inr ⟨_, mem_cons_self, x, hnew, hrefl x⟩

end FuelGrid.Sql
