import FuelGrid.Sql.Txn

/-!
# Rely–guarantee reasoning about transactions

Writing an assertion for every point of every program is what `Outline` asks for. Most of it can
be computed: a `Contract` fixes once what a transaction may assume about the commits of the others
(`rely`) and what it owes them when it commits (`guar`), and `Contract.Safe` then executes a
program symbolically, with the committed state moving along `rely` before each statement.

What a transaction may rely on depends on where it is: the locks it holds, its log and the
statement it executes next. A run condition that forbids a commit while another transaction is
inside some window of statements therefore enters through `rely`, and a condition on the executed
statement itself through `cond`.

`Contract.sound` is the rule: if every program is safe from the start, and what a committing
transaction guarantees is what the others rely on, then the invariant holds in every reached state
and every commit satisfied `post`. Where the terms depend on what a transaction is there for, each
one has its own contract (`Contract.soundEach`).
-/

namespace FuelGrid.Sql

/-- The terms on which the transactions of a run interleave. -/
structure Contract (S : Schema) where
  /-- The invariant of the committed state. -/
  inv : S.Db → ℕ → Prop
  /-- How the committed state can move under a transaction. -/
  rely : Local S → S.Db → S.Db → Prop
  /-- What the run condition says about the transaction that takes the step. -/
  cond : Local S → S.Db → ℕ → Prop
  /-- What a transaction promises when it commits. -/
  guar : Local S → S.Db → ℕ → Prop
  /-- What a commit establishes, given its answer, the state it commits to and its log. -/
  post : S.Result → S.Db → List S.Write → Prop
  inv_tick : ∀ {db n}, inv db n → inv db (n + 1)
  rely_refl : ∀ l db, rely l db db
  rely_trans : ∀ {l db₁ db₂ db₃}, rely l db₁ db₂ → rely l db₂ db₃ → rely l db₁ db₃

namespace Contract

variable {S : Schema} (K : Contract S) {l : Local S} {p : Prog S}

/-- `K.At l db n P`: whenever the transaction `l`, now at the state `db`, gets to take its next
step, `P` holds of the committed state and the stamp it then finds. -/
def At (l : Local S) (db : S.Db) (n : ℕ) (P : S.Db → ℕ → Prop) : Prop :=
  ∀ db' n', n ≤ n' → K.rely l db db' → K.inv db' n' → K.cond l db' n' → P db' n'

/-- The program keeps the contract from here to its end, whatever the others commit. -/
def Safe : Prog S → Set S.Key → List S.Write → S.Db → ℕ → Prop
  | .commit a, held, log, db, n => K.At ⟨held, log, .commit a⟩ db n fun db' n' ↦
      K.guar ⟨held, log, .commit a⟩ db' n' ∧ K.inv (replay db' log) n' ∧ K.post a db' log
  | .rollback _, _, _, _, _ => True
  | .lock k next, held, log, db, n => K.At ⟨held, log, .lock k next⟩ db n fun db' n' ↦
      Safe next (insert k held) log db' n'
  | .query q next, held, log, db, n => K.At ⟨held, log, .query q next⟩ db n fun db' n' ↦
      Safe (next (S.exec q db' (replay db' log) n').2) held
        (log ++ (S.exec q db' (replay db' log) n').1) db' (n' + 1)

variable {K} {P : S.Db → ℕ → Prop}

theorem At.mono {db db' : S.Db} {n n' : ℕ} (h : K.At l db n P) (hn : n ≤ n')
    (hr : K.rely l db db') : K.At l db' n' P :=
  fun db'' n'' hn' hr' ↦ h db'' n'' (hn.trans hn') (K.rely_trans hr hr')

/-- Safety survives what the contract lets the others do. -/
theorem Safe.mono {held : Set S.Key} {log : List S.Write} {db db' : S.Db} {n n' : ℕ}
    (h : K.Safe p held log db n) (hn : n ≤ n') (hr : K.rely ⟨held, log, p⟩ db db') :
    K.Safe p held log db' n' := by
  cases p with
  | commit a => exact At.mono h hn hr
  | rollback e => trivial
  | lock k next => exact At.mono h hn hr
  | query q next => exact At.mono h hn hr

section Query

variable {q : S.Query} {next : S.Reply q → Prog S} {held : Set S.Key} {log : List S.Write}
  {db : S.Db} {n : ℕ}

/-- To go past a statement, take what it writes and replies as given. -/
theorem safe_query (h : ∀ db' n', n ≤ n' → K.rely ⟨held, log, .query q next⟩ db db' →
      K.inv db' n' → K.cond ⟨held, log, .query q next⟩ db' n' → ∀ ws r,
      S.exec q db' (replay db' log) n' = (ws, r) → K.Safe (next r) held (log ++ ws) db' (n' + 1)) :
    K.Safe (.query q next) held log db n :=
  fun db' n' hn hr hinv hc ↦ h db' n' hn hr hinv hc _ _ rfl

/-- Past a statement that writes nothing the log is what it was. -/
theorem safe_reply (hrd : (fun committed view n ↦ (S.exec q committed view n).1) = fun _ _ _ ↦ [])
    (h : ∀ db' n', K.rely ⟨held, log, .query q next⟩ db db' → K.inv db' n' →
      ∀ r, (S.exec q db' (replay db' log) n').2 = r → K.Safe (next r) held log db' (n' + 1)) :
    K.Safe (.query q next) held log db n := by
  refine safe_query fun db' n' _ hr hinv _ ws r hout ↦ ?_
  have hws : (S.exec q db' (replay db' log) n').1 = [] := congrFun (congrFun (congrFun hrd _) _) _
  obtain rfl : [] = ws := by rw [← hws, hout]
  rw [append_nil]
  exact h db' n' hr hinv r (by rw [hout])

end Query

section Sound

variable {T : Type} [DecidableEq T] {C : State S T → Act T → Prop} {s : State S T}
  {prog : T → Prog S} {db0 : S.Db} {n0 : ℕ}

/-- Contracts with a common invariant, one for each transaction, suit the condition `C` on steps if
`C` implies the contract's own condition on the acting transaction, and if a commit moves the state
in a way the others rely on. -/
structure SuitsEach (K : T → Contract S) (I : S.Db → ℕ → Prop) (C : State S T → Act T → Prop) :
    Prop where
  inv : ∀ t db n, (K t).inv db n ↔ I db n
  cond : ∀ {s t p}, C s (.run t) → s.prog t = some p → (K t).cond (s.txn t p) s.db s.stamp
  compat : ∀ {s t a u p}, C s (.run t) → s.prog t = some (.commit a) →
    I s.db s.stamp → (K t).guar (s.txn t (.commit a)) s.db s.stamp → u ≠ t →
    s.prog u = some p → (K u).rely (s.txn u p) s.db (s.view t)

section Each

variable {K : T → Contract S} {I : S.Db → ℕ → Prop}

omit [DecidableEq T] in
/-- What a transaction that keeps its contract finds when it takes its step. -/
private theorem SuitsEach.here (h : SuitsEach K I C) {t : T}
    (hat : (K t).At (s.txn t p) s.db s.stamp P) (hI : I s.db s.stamp) (hC : C s (.run t))
    (hp : s.prog t = some p) : P s.db s.stamp :=
  hat _ _ le_rfl ((K t).rely_refl _ _) ((h.inv t _ _).mpr hI) (h.cond hC hp)

omit [DecidableEq T] in
private theorem outlineEach (h : SuitsEach K I C) (tick : ∀ {db n}, I db n → I db (n + 1)) :
    Outline C I (fun t l db n ↦ (K t).Safe l.prog l.held l.log db n)
      (fun c : Commit S T ↦ (K c.txn).post c.result c.before c.writes) where
  tick := tick
  tickLocal {t _ _ _} hA := hA.mono (le_succ _) ((K t).rely_refl _ _)
  query hs hC hp := by
    have hnx := h.here (hs.running _ _ hp) hs.committed hC hp
    exact hnx
  lock hs hC hp _ := h.here (hs.running _ _ hp) hs.committed hC hp
  commit hs hC hp := (h.inv _ _ _).mp (h.here (hs.running _ _ hp) hs.committed hC hp).2.1
  event hs hC hp := (h.here (hs.running _ _ hp) hs.committed hC hp).2.2
  stable hs hC hp hne hu := by
    have hguar := (h.here (hs.running _ _ hp) hs.committed hC hp).1
    exact (hs.running _ _ hu).mono le_rfl (h.compat hC hp hs.committed hguar hne hu)

/-- If every program is safe at the start under its own contract, then in every state reached by
steps that satisfy `C` the invariant holds and every commit established its `post`. -/
theorem soundEach (h : SuitsEach K I C) (tick : ∀ {db n}, I db n → I db (n + 1)) (hI : I db0 n0)
    (hprog : ∀ t, (K t).Safe (prog t) ∅ [] db0 n0) (hrch : Reach C (State.init db0 n0 prog) s) :
    I s.db s.stamp ∧ ∀ c ∈ s.commits, (K c.txn).post c.result c.before c.writes := by
  have hs := (outlineEach h tick).holds_of_reach (Outline.holds_init hI hprog) hrch
  exact ⟨hs.committed, hs.history⟩

/-- What every commit of a run does to the committed state, if that composes, is what happens from
any reached state to a later one. -/
theorem soundEach_later (h : SuitsEach K I C) (tick : ∀ {db n}, I db n → I db (n + 1))
    {R : S.Db → S.Db → Prop} (hrefl : ∀ db, R db db)
    (htra : ∀ {db₁ db₂ db₃}, R db₁ db₂ → R db₂ db₃ → R db₁ db₃)
    (hpost : ∀ {t a db log}, (K t).post a db log → R db (replay db log)) {s' : State S T}
    (hI : I db0 n0) (hprog : ∀ t, (K t).Safe (prog t) ∅ [] db0 n0)
    (hrch : Reach C (State.init db0 n0 prog) s) (hlat : Reach C s s') : R s.db s'.db := by
  induction hlat with
  | refl => exact hrefl _
  | step a hmid hC hst ih =>
    have o := outlineEach h tick
    have hs := o.holds_of_reach (Outline.holds_init hI hprog) (hrch.trans hmid)
    rcases State.step_db hst with ⟨hdb, -⟩ | ⟨t, r, rfl, hp, hdb, -⟩
    · rw [hdb]
      exact ih
    · rw [hdb]
      exact htra ih (hpost (o.event hs hC hp))

end Each

/-- One contract for all transactions suits the condition `C`. -/
structure Suits (K : Contract S) (C : State S T → Act T → Prop) : Prop where
  cond : ∀ {s t p}, C s (.run t) → s.prog t = some p → K.cond (s.txn t p) s.db s.stamp
  compat : ∀ {s t a u p}, C s (.run t) → s.prog t = some (.commit a) →
    K.inv s.db s.stamp → K.guar (s.txn t (.commit a)) s.db s.stamp → u ≠ t →
    s.prog u = some p → K.rely (s.txn u p) s.db (s.view t)

/-- If every program is safe at the start, then in every state reached by steps that satisfy `C`
the invariant holds and every commit established `post`. -/
theorem sound (h : K.Suits C) (hI : K.inv db0 n0) (hprog : ∀ t, K.Safe (prog t) ∅ [] db0 n0)
    (hrch : Reach C (State.init db0 n0 prog) s) :
    K.inv s.db s.stamp ∧ ∀ c ∈ s.commits, K.post c.result c.before c.writes :=
  soundEach (K := fun _ ↦ K) ⟨fun _ _ _ ↦ .rfl, h.cond, h.compat⟩ K.inv_tick hI hprog hrch

end Sound

end Contract

export Contract (safe_query safe_reply)

end FuelGrid.Sql
