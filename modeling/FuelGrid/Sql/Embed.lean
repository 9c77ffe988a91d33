import FuelGrid.Sql.RelyGuarantee

/-!
# A database inside a larger one

Transactions that were modelled on a few tables also take part in runs on more tables. `Part S S'`
says how the database of `S` sits inside that of `S'`, and `Prog.lift` is the same transaction on
the larger database. It behaves there as it does on its own part and leaves the rest alone
(`Prog.alone_lift`), and what it promises on its part is a promise on the whole
(`Contract.Safe.lift`).
-/

namespace FuelGrid.Sql

/-- The database of `S` as a part of that of `S'`. -/
structure Part (S S' : Schema) where
  part : S'.Db → S.Db
  /-- Replace the part. -/
  put : S'.Db → S.Db → S'.Db
  write : S.Write → S'.Write
  query : S.Query → S'.Query
  reply : (q : S.Query) → S'.Reply (query q) → S.Reply q
  key : S.Key → S'.Key
  result : S.Result → S'.Result
  error : S.Error → S'.Error
  put_part : ∀ db, put db (part db) = db
  part_put : ∀ db x, part (put db x) = x
  put_put : ∀ db x y, put (put db x) y = put db y
  /-- Different locks stay different. -/
  key_inj : Function.Injective key
  apply_write : ∀ db w, S'.apply db (write w) = put db (S.apply (part db) w)
  exec_writes : ∀ q committed view n, (S'.exec (query q) committed view n).1
    = (S.exec q (part committed) (part view) n).1.map write
  exec_reply : ∀ q committed view n, reply q (S'.exec (query q) committed view n).2
    = (S.exec q (part committed) (part view) n).2

variable {S S' : Schema} (P : Part S S') {p : Prog S} {db : S'.Db} {held : Set S'.Key}

/-- The transaction on the larger database. -/
def Prog.lift : Prog S → Prog S'
  | .commit a => .commit (P.result a)
  | .rollback e => .rollback (P.error e)
  | .lock k next => .lock (P.key k) next.lift
  | .query q next => .query (P.query q) fun r ↦ (next (P.reply q r)).lift

namespace Part

/-- The outcome of a transaction on the part, seen on the whole. -/
def outcome (db : S'.Db) (out : Except S.Error S.Result × S.Db × ℕ) :
    Except S'.Error S'.Result × S'.Db × ℕ :=
  (match out.1 with
    | .ok a => .ok (P.result a)
    | .error e => .error (P.error e), P.put db out.2.1, out.2.2)

/-- The writes of the part move the part only. -/
theorem replay_write (db : S'.Db) (log : List S.Write) :
    replay db (log.map P.write) = P.put db (replay (P.part db) log) := by
  induction log generalizing db with
  | nil => exact (P.put_part db).symm
  | cons w ws ih =>
    rw [map_cons, replay_cons, replay_cons, ih, P.apply_write, P.part_put, P.put_put]

private theorem part_replay (db : S'.Db) (log : List S.Write) :
    P.part (replay db (log.map P.write)) = replay (P.part db) log := by
  rw [P.replay_write, P.part_put]

end Part

/-- Executed alone, the lifted transaction does to the part what it did before. -/
theorem Prog.alone_lift (p : Prog S) (db : S'.Db) (log : List S.Write) (n : ℕ) :
    (p.lift P).alone db (log.map P.write) n = P.outcome db (p.alone (P.part db) log n) := by
  induction p generalizing log n with
  | commit a =>
    change (_, replay db (log.map P.write), n) = _
    rw [P.replay_write]
    rfl
  | rollback e =>
    change (_, db, n) = (_, P.put db (P.part db), n)
    rw [P.put_part]
    rfl
  | lock k next ih => exact ih log n
  | query q next ih =>
    change ((next (P.reply q (S'.exec _ db _ n).2)).lift P).alone db
      (log.map P.write ++ (S'.exec (P.query q) db _ n).1) (n + 1) = _
    rw [P.exec_reply, P.exec_writes, P.part_replay, ← map_append, ih]
    rfl

/-! ## Calls

A function that was modelled as a transaction of its own can also be called from a larger one
(`Prog.call`): the caller goes on with its answer, and also after an error what it wrote stays in
the caller's log. What the caller needs to know is which logs and answers the function can come back
with, whatever it reads (`Prog.Answers`). -/

/-- Execute the program on the part and go on with what it answers. -/
def Prog.call : Prog S → (Except S.Error S.Result → Prog S') → Prog S'
  | .commit a, k => k (.ok a)
  | .rollback e, k => k (.error e)
  | .lock key next, k => .lock (P.key key) (next.call k)
  | .query q next, k => .query (P.query q) fun r ↦ (next (P.reply q r)).call k

/-- Wherever the program ends, whatever its statements found, its log and its answer satisfy `W`. -/
def Prog.Answers (W : List S.Write → Except S.Error S.Result → Prop) :
    Prog S → List S.Write → Prop
  | .commit a, log => W log (.ok a)
  | .rollback e, log => W log (.error e)
  | .lock _ next, log => next.Answers W log
  | .query q next, log => ∀ committed view n,
      (next (S.exec q committed view n).2).Answers W (log ++ (S.exec q committed view n).1)

section Answers

variable {W : List S.Write → Except S.Error S.Result → Prop} {q : S.Query}
  {next : S.Reply q → Prog S} {log : List S.Write}

theorem Prog.answers_lock (key : S.Key) (next : Prog S) :
    (Prog.lock key next).Answers W log = next.Answers W log := rfl

theorem Prog.answers_step (h : ∀ committed view n ws r, S.exec q committed view n = (ws, r) →
    (next r).Answers W (log ++ ws)) : (Prog.query q next).Answers W log :=
  fun committed view n ↦ h committed view n _ _ rfl

theorem Prog.answers_read
    (hrd : (fun committed view n ↦ (S.exec q committed view n).1) = fun _ _ _ ↦ [])
    (h : ∀ r, (next r).Answers W log) : (Prog.query q next).Answers W log := by
  intro committed view n
  have hws : (S.exec q committed view n).1 = [] := congrFun (congrFun (congrFun hrd _) _) _
  rw [hws, append_nil]
  exact h _

theorem Prog.Answers.mono {W' : List S.Write → Except S.Error S.Result → Prop}
    (h : p.Answers W log) (hW : ∀ ws r, W ws r → W' ws r) : p.Answers W' log := by
  induction p generalizing log with
  | commit a => exact hW _ _ h
  | rollback e => exact hW _ _ h
  | lock k next ih => exact ih h
  | query q next ih => exact fun committed view n ↦ ih _ (h committed view n)

/-- A program has some log and some answer. -/
theorem Prog.answers_any (p : Prog S) (log : List S.Write) : p.Answers (fun _ _ ↦ True) log := by
  induction p generalizing log with
  | commit a => trivial
  | rollback e => trivial
  | lock k next ih => exact ih log
  | query q next ih => exact fun _ _ _ ↦ ih _ _

end Answers

section Call

variable {P} {W : List S.Write → Except S.Error S.Result → Prop}
  {k : Except S.Error S.Result → Prog S'} {Q : S'.Result → S'.Db → ℕ → Prop} {view : S'.Db} {n : ℕ}

/-- What the call of a statement on the part writes, seen on the whole. -/
private theorem map_exec_writes {q : S.Query} {committed view : S'.Db} {n : ℕ}
    {ws' : List S'.Write} {r : S'.Reply (P.query q)}
    (hout : S'.exec (P.query q) committed view n = (ws', r)) :
    (S.exec q (P.part committed) (P.part view) n).1.map P.write = ws' := by
  rw [← P.exec_writes, hout]

/-- To go past a call, take its log and its answer as given. -/
theorem Prog.yields_call (hp : p.Answers W [])
    (hk : ∀ ws r n', n ≤ n' → W ws r → (k r).Yields db Q (replay view (ws.map P.write)) n') :
    (p.call P k).Yields db Q view n := by
  suffices h : ∀ ws m, n ≤ m → p.Answers W ws →
      (p.call P k).Yields db Q (replay view (ws.map P.write)) m from h [] n le_rfl hp
  clear hp
  induction p with
  | commit a => exact fun ws m hm hp ↦ hk ws _ m hm hp
  | rollback e => exact fun ws m hm hp ↦ hk ws _ m hm hp
  | lock key next ih => exact ih
  | query q next ih =>
    intro ws m hm hp
    refine yields_step fun ws' r hout ↦ ?_
    have hnx := hp (P.part db) (P.part (replay view (ws.map P.write))) m
    rw [← P.exec_reply, hout] at hnx
    rw [← replay_append, ← map_exec_writes hout, ← map_append]
    exact ih _ _ _ (hm.trans (le_succ m)) hnx

/-- Execute the program on the rows `base`, which are the committed ones with the changes of the
caller: its answer, its log and the next stamp. -/
def Prog.within (committed base : S.Db) :
    Prog S → List S.Write → ℕ → Except S.Error S.Result × List S.Write × ℕ
  | .commit a, log, n => (.ok a, log, n)
  | .rollback e, log, n => (.error e, log, n)
  | .lock _ next, log, n => next.within committed base log n
  | .query q next, log, n =>
    let out := S.exec q committed (replay base log) n
    (next out.2).within committed base (log ++ out.1) (n + 1)

/-- A caller that is executed alone goes on with what the function answers on the caller's view. -/
theorem Prog.yields_call_eq : (p.call P k).Yields db Q view n =
    let out := p.within (P.part db) (P.part view) [] n
    (k out.1).Yields db Q (replay view (out.2.1.map P.write)) out.2.2 := by
  suffices h : ∀ ws n, (p.call P k).Yields db Q (replay view (ws.map P.write)) n =
      let out := p.within (P.part db) (P.part view) ws n
      (k out.1).Yields db Q (replay view (out.2.1.map P.write)) out.2.2 from h [] n
  induction p with
  | commit a => exact fun _ _ ↦ rfl
  | rollback e => exact fun _ _ ↦ rfl
  | lock key next ih => exact ih
  | query q next ih =>
    intro ws n
    rw [Prog.call, Prog.yields_query, P.exec_reply, P.exec_writes, P.part_replay, ← replay_append,
      ← map_append, ih]
    rfl

section Within

variable {Q : Except S.Error S.Result × List S.Write × ℕ → Prop} {committed base : S.Db}
  {q : S.Query} {next : S.Reply q → Prog S} {log : List S.Write} {n : ℕ}

theorem Prog.within_step (h : ∀ ws r, S.exec q committed (replay base log) n = (ws, r) →
    Q ((next r).within committed base (log ++ ws) (n + 1))) :
    Q ((Prog.query q next).within committed base log n) := h _ _ rfl

theorem Prog.within_reply (hrd : (S.exec q committed (replay base log) n).1 = [])
    (h : ∀ r, (S.exec q committed (replay base log) n).2 = r →
      Q ((next r).within committed base log (n + 1))) :
    Q ((Prog.query q next).within committed base log n) := by
  refine Prog.within_step fun ws r hout ↦ ?_
  rw [hout] at hrd h
  cases hrd
  rw [append_nil]
  exact h r rfl

end Within

end Call

namespace Contract

/-- The terms `K` on the part, seen from those of the whole. -/
structure Within (K : Contract S) (K' : Contract S') : Prop where
  inv : ∀ {db n}, K'.inv db n → K.inv (P.part db) n
  rely : ∀ {held log p db db'}, K'.rely ⟨held, log.map P.write, p.lift P⟩ db db' →
    K.rely ⟨Set.preimage P.key held, log, p⟩ (P.part db) (P.part db')
  cond : ∀ {held log p db n}, K'.cond ⟨held, log.map P.write, p.lift P⟩ db n →
    K.cond ⟨Set.preimage P.key held, log, p⟩ (P.part db) n
  commit : ∀ {held log a db n}, K'.inv db n →
    K.guar ⟨Set.preimage P.key held, log, .commit a⟩ (P.part db) n →
    K.inv (replay (P.part db) log) n → K.post a (P.part db) log →
    K'.guar ⟨held, log.map P.write, .commit (P.result a)⟩ db n ∧
      K'.inv (replay db (log.map P.write)) n ∧ K'.post (P.result a) db (log.map P.write)

variable {P} {K : Contract S} {K' : Contract S'}

private theorem preimage_insert (k : S.Key) (held : Set S'.Key) :
    Set.preimage P.key (insert (P.key k) held) = insert k (Set.preimage P.key held) := by
  ext k'
  simp only [Set.mem_preimage, Set.mem_insert_iff, P.key_inj.eq_iff]

/-- A transaction that keeps the terms of the part keeps those of the whole. -/
theorem Safe.lift (h : Within P K K') {log : List S.Write} {n : ℕ}
    (hsafe : K.Safe p (Set.preimage P.key held) log (P.part db) n) :
    K'.Safe (p.lift P) held (log.map P.write) db n := by
  induction p generalizing held log db n with
  | commit a =>
    intro db' n' hn hr hinv hc
    obtain ⟨hguar, hinv', hpost⟩ := hsafe (P.part db') n' hn (h.rely hr) (h.inv hinv)
      (h.cond hc)
    exact h.commit hinv hguar hinv' hpost
  | rollback e => trivial
  | lock k next ih =>
    intro db' n' hn hr hinv hc
    refine ih ?_
    rw [preimage_insert]
    exact hsafe (P.part db') n' hn (h.rely hr) (h.inv hinv) (h.cond hc)
  | query q next ih =>
    intro db' n' hn hr hinv hc
    have hnx := hsafe (P.part db') n' hn (h.rely hr) (h.inv hinv) (h.cond hc)
    dsimp only
    rw [P.exec_reply, P.exec_writes, P.part_replay, ← map_append]
    exact ih _ hnx

/-- To go past a call, take its log and its answer as given. `R` is what the caller knows of the
committed state and the others keep while it holds `held`. -/
theorem safe_call {R : S'.Db → ℕ → Prop} {W : List S.Write → Except S.Error S.Result → Prop}
    {k : Except S.Error S.Result → Prog S'} {log : List S'.Write} {n : ℕ}
    (hstb : ∀ {l : Local S'} {db db' n n'}, held ⊆ l.held → n ≤ n' → K'.rely l db db' → R db n →
      R db' n') (hR : R db n) (hp : p.Answers W [])
    (hk : ∀ held' ws r db' n', held ⊆ held' → R db' n' → W ws r →
      K'.Safe (k r) held' (log ++ ws.map P.write) db' n') : K'.Safe (p.call P k) held log db n := by
  -- the locks that the call takes are kept by the caller, so the set of locks only grows
  suffices h : ∀ held' ws db n, held ⊆ held' → R db n → p.Answers W ws →
      K'.Safe (p.call P k) held' (log ++ ws.map P.write) db n by
    have := h held [] db n subset_rfl hR hp
    rwa [map_nil, append_nil] at this
  clear hp hR
  induction p with
  | commit a => exact fun held' ws db n hsub hR hp ↦ hk held' ws _ db n hsub hR hp
  | rollback e => exact fun held' ws db n hsub hR hp ↦ hk held' ws _ db n hsub hR hp
  | lock key next ih =>
    intro held' ws db n hsub hR hp db' n' hn hr _ _
    exact ih _ ws db' n' (hsub.trans (subset_insert _ _)) (hstb hsub hn hr hR) hp
  | query q next ih =>
    intro held' ws db n hsub hR hp
    refine safe_query fun db' n' hn hr _ _ ws' r hout ↦ ?_
    have hnx := hp (P.part db') (P.part (replay db' (log ++ ws.map P.write))) n'
    rw [← P.exec_reply, hout] at hnx
    rw [append_assoc, ← map_exec_writes hout, ← map_append]
    exact ih _ held' _ db' _ hsub (hstb hsub (hn.trans (le_succ n')) hr hR) hnx

end Contract

end FuelGrid.Sql
