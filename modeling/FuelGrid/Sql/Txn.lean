import FuelGrid.Sql.Rows
import Mathlib.Data.Fintype.Basic
import Mathlib.Data.Set.Insert
import Mathlib.Logic.Function.Basic

/-!
# Interleaved transactions at READ COMMITTED

A transaction is a program of statements and lock requests (`Prog`).

The machine keeps one committed database. A transaction's writes go to a private log; each of its
statements sees the rows committed when the statement starts together with its own log, and `commit`
replays the log onto the committed database. A statement that waits for a row lock is a sequence of
nodes: the part evaluated on the snapshot of its start, the lock, and the part re-evaluated after
the wait.

## Main definitions

* `Schema`, `Prog`: statements of a database and the programs over them;
* `State.step`, `Reach`: the interleaving machine and the states it reaches;
* `Prog.alone`, `Runs`, `Traces`: a program executed without interference, and runs of whole
  transactions, with or without what they were answered;
* `Outline`: the obligations of a proof with one assertion per transaction, which the commits of
  the others must keep;
* `State.Distinct`: ids drawn from the stamp are not shared between transactions.
-/

namespace FuelGrid

export Set (empty_subset mem_insert mem_insert_of_mem subset_insert)

end FuelGrid

namespace FuelGrid.Sql

/-- The id of a row. A row inserted by a transaction gets the stamp of its statement. -/
abbrev Uuid := ℕ

/-- Errors of the statements that most schemas have. -/
inductive PgError where
  | numericOverflow | checkViolation | foreignKeyViolation | uniqueViolation

instance : LawfulBEq (Uuid × Uuid) := inferInstance

/-! ## What a statement logs -/

section Logged

variable {α ε W : Type} {write : α → W} {ws : List W} {w : W} {x : Except ε (Option α)}

/-- Log the row that a statement inserts. -/
def logged (write : α → W) : Except ε α → List W × Except ε α
  | .ok a => ([write a], .ok a)
  | .error e => ([], .error e)

/-- Log the row that a statement writes, if it writes one. -/
def loggedRow (write : α → W) : Except ε (Option α) → List W × Except ε (Option α)
  | .ok (some a) => ([write a], .ok (some a))
  | .ok none => ([], .ok none)
  | .error e => ([], .error e)

/-- Log the row that an update returns, if there is one. -/
def loggedUpdate (write : α → W) (row : Option α) : List W × Option α :=
  ((row.map write).toList, row)

theorem logged_eq {x r : Except ε α} (h : logged write x = (ws, r)) :
    (∃ e, x = .error e ∧ [] = ws ∧ .error e = r) ∨ ∃ a, x = .ok a ∧ [write a] = ws ∧ .ok a = r := by
  rcases x with e | a
  · exact .inl ⟨e, rfl, Prod.mk.inj h⟩
  · exact .inr ⟨a, rfl, Prod.mk.inj h⟩

theorem loggedRow_eq {r : Except ε (Option α)} (h : loggedRow write x = (ws, r)) :
    (∃ e, x = .error e ∧ [] = ws ∧ .error e = r) ∨ (x = .ok none ∧ [] = ws ∧ .ok none = r) ∨
      ∃ a, x = .ok (some a) ∧ [write a] = ws ∧ .ok (some a) = r := by
  rcases x with e | _ | a
  · exact .inl ⟨e, rfl, Prod.mk.inj h⟩
  · exact .inr (.inl ⟨rfl, Prod.mk.inj h⟩)
  · exact .inr (.inr ⟨a, rfl, Prod.mk.inj h⟩)

theorem loggedUpdate_eq {x r : Option α} (h : loggedUpdate write x = (ws, r)) :
    (x = none ∧ [] = ws ∧ none = r) ∨ ∃ a, x = some a ∧ [write a] = ws ∧ some a = r := by
  rcases x with _ | a
  · exact .inl ⟨rfl, Prod.mk.inj h⟩
  · exact .inr ⟨a, rfl, Prod.mk.inj h⟩

theorem mem_logged {x : Except ε α} (h : w ∈ (logged write x).1) :
    ∃ a, x = .ok a ∧ w = write a := by
  rcases x with e | a
  · cases h
  · exact ⟨a, rfl, mem_singleton.mp h⟩

theorem mem_loggedRow (h : w ∈ (loggedRow write x).1) : ∃ a, x = .ok (some a) ∧ w = write a := by
  rcases x with e | _ | a
  · cases h
  · cases h
  · exact ⟨a, rfl, mem_singleton.mp h⟩

theorem mem_loggedUpdate {x : Option α} (h : w ∈ (loggedUpdate write x).1) :
    ∃ a, x = some a ∧ w = write a := by
  rcases x with _ | a
  · cases h
  · exact ⟨a, rfl, mem_singleton.mp h⟩

end Logged

/-- Of what was found to satisfy `P`, show `Q`. -/
theorem exists_and_imp {α : Sort*} {R Q : α → Prop} (P : α → Prop) (h : ∃ s, R s ∧ P s)
    (hQ : ∀ s, R s → P s → Q s) : ∃ s, R s ∧ Q s := by
  obtain ⟨s, hs, hP⟩ := h
  exact ⟨s, hs, hQ s hs hP⟩

/-! ## Programs

Statements are data, so that a property of a run can speak about the statement a transaction is
about to execute. -/

/-- The database a family of transactions works on: its committed states, the writes a log
records, the statements and their replies, and the keys of the locks. -/
structure Schema where
  /-- The committed state. -/
  Db : Type
  /-- One logged change. -/
  Write : Type
  /-- A statement with its parameters. -/
  Query : Type
  /-- What a statement returns. -/
  Reply : Query → Type
  /-- What a lock is taken on. -/
  Key : Type
  /-- What a committed transaction answers. -/
  Result : Type
  /-- Why a transaction was rolled back. -/
  Error : Type
  /-- Lock keys can be compared. -/
  [keyEq : DecidableEq Key]
  /-- The key whose lock this one asks for in shared mode; most keys are locked exclusively. -/
  shares : Key → Option Key := fun _ ↦ none
  /-- A lock has at most one shared mode. -/
  shares_inj : ∀ k₁ k₂ k, shares k₁ = some k → shares k₂ = some k → k₁ = k₂ := by nofun
  /-- Replay one write. -/
  apply : Db → Write → Db
  /-- Execute a statement with a fresh stamp. It is given the committed state, which is what a
  read on another connection sees, and the view of its own transaction. -/
  exec : (q : Query) → (committed view : Db) → ℕ → List Write × Reply q

attribute [instance] Schema.keyEq

/-- A transaction: statements and lock requests, ending in a commit or a rollback. -/
inductive Prog (S : Schema) where
  | commit (a : S.Result)
  | rollback (e : S.Error)
  | lock (k : S.Key) (next : Prog S)
  | query (q : S.Query) (next : S.Reply q → Prog S)

variable {S : Schema} {p : Prog S}

/-- Replay a log onto a state. -/
def replay (db : S.Db) (log : List S.Write) : S.Db := log.foldl S.apply db

@[simp] theorem replay_nil (db : S.Db) : replay db [] = db := rfl

@[simp] theorem replay_cons (db : S.Db) (w : S.Write) (ws : List S.Write) :
    replay db (w :: ws) = replay (S.apply db w) ws := rfl

theorem replay_append (db : S.Db) (ws vs : List S.Write) :
    replay db (ws ++ vs) = replay (replay db ws) vs := List.foldl_append

/-- What the rows of a table are after a log, if every change only adds rows to it. -/
theorem replay_rows {α : Type} (rows : S.Db → List α) (added : S.Write → Option α)
    (h : ∀ db w, rows (S.apply db w) = rows db ++ (added w).toList) (db : S.Db)
    (ws : List S.Write) :
    rows (replay db ws) = rows db ++ ws.filterMap added := by
  induction ws generalizing db with
  | nil => exact (append_nil _).symm
  | cons w ws ih =>
    rw [replay_cons, ih, h, append_assoc]
    rcases hw : added w with _ | a
    · rw [List.filterMap_cons_none hw, Option.toList_none, nil_append]
    · rw [List.filterMap_cons_some hw, Option.toList_some, singleton_append]

namespace Prog

/-- Every statement the program can execute satisfies `P`, with the locks it then holds if those
in `held` are held now. -/
def Each (P : Set S.Key → S.Query → Prop) : Set S.Key → Prog S → Prop
  | _, .commit _ => True
  | _, .rollback _ => True
  | held, .lock k next => Each P (insert k held) next
  | held, .query q next => P held q ∧ ∀ r, Each P held (next r)

theorem Each.mono {P : Set S.Key → S.Query → Prop} {held held' : Set S.Key}
    (hP : ∀ {H H' q}, H ⊆ H' → P H q → P H' q) (h : Each P held p) (hsub : held ⊆ held') :
    Each P held' p := by
  induction p generalizing held held' with
  | commit a => trivial
  | rollback e => trivial
  | lock k next ih => exact ih h (Set.insert_subset_insert hsub)
  | query q next ih => exact ⟨hP hsub h.1, fun r ↦ ih r (h.2 r) hsub⟩

/-- Execute the program from the state `db` with no other transaction running. -/
def alone (db : S.Db) : Prog S → List S.Write → ℕ → Except S.Error S.Result × S.Db × ℕ
  | .commit a, log, n => (.ok a, replay db log, n)
  | .rollback e, _, n => (.error e, db, n)
  | .lock _ next, log, n => next.alone db log n
  | .query q next, log, n =>
    let out := S.exec q db (replay db log) n
    (next out.2).alone db (log ++ out.1) (n + 1)

@[simp] theorem alone_lock (db : S.Db) (k : S.Key) (next : Prog S) (log : List S.Write) (n : ℕ) :
    (lock k next).alone db log n = next.alone db log n := rfl

theorem alone_query (db : S.Db) (q : S.Query) (next : S.Reply q → Prog S) (log : List S.Write)
    (n : ℕ) :
    (query q next).alone db log n = (next (S.exec q db (replay db log) n).2).alone db
      (log ++ (S.exec q db (replay db log) n).1) (n + 1) := rfl

theorem le_alone_stamp (p : Prog S) (db : S.Db) (log : List S.Write) (n : ℕ) :
    n ≤ (p.alone db log n).2.2 := by
  induction p generalizing log n with
  | commit a => exact le_rfl
  | rollback e => exact le_rfl
  | lock k next ih => exact ih log n
  | query q next ih => exact (Nat.le_succ n).trans (ih _ _ (n + 1))

section Outcome

variable {Q : Except S.Error S.Result × S.Db × ℕ → Prop} {db : S.Db} {q : S.Query}
  {next : S.Reply q → Prog S} {log : List S.Write} {n : ℕ}

/-- To show a property of the outcome past a statement, show it for what it writes and replies. -/
theorem alone_step (h : ∀ ws r, S.exec q db (replay db log) n = (ws, r) →
    Q ((next r).alone db (log ++ ws) (n + 1))) : Q ((query q next).alone db log n) :=
  h _ _ rfl

/-- To show a property of the outcome past a statement that writes nothing, show it for the
reply. -/
theorem alone_reply (hrd : (S.exec q db (replay db log) n).1 = [])
    (h : ∀ r, (S.exec q db (replay db log) n).2 = r → Q ((next r).alone db log (n + 1))) :
    Q ((query q next).alone db log n) := by
  rw [alone_query, hrd, append_nil]
  exact h _ rfl

end Outcome

/-- Alone from here, with its own writes in `view`, the program is refused, or `Q` holds of its
answer, of the state that it commits and of the stamp. -/
def Yields (db : S.Db) (Q : S.Result → S.Db → ℕ → Prop) : Prog S → S.Db → ℕ → Prop
  | .commit a, view, n => Q a view n
  | .rollback _, _, _ => True
  | .lock _ next, view, n => next.Yields db Q view n
  | .query q next, view, n =>
    let out := S.exec q db view n
    (next out.2).Yields db Q (replay view out.1) (n + 1)

section Yields

variable {Q : S.Result → S.Db → ℕ → Prop} {db view : S.Db} {q : S.Query}
  {next : S.Reply q → Prog S} {n : ℕ}

theorem yields_lock {k : S.Key} {next : Prog S} :
    (lock k next).Yields db Q view n = next.Yields db Q view n := rfl

theorem yields_query : (query q next).Yields db Q view n =
    (next (S.exec q db view n).2).Yields db Q (replay view (S.exec q db view n).1) (n + 1) := rfl

/-- To go past a statement, take what it writes and replies as given. -/
theorem yields_step (h : ∀ ws r, S.exec q db view n = (ws, r) →
    (next r).Yields db Q (replay view ws) (n + 1)) : (query q next).Yields db Q view n :=
  h _ _ rfl

/-- Past a statement that writes nothing the view is what it was. -/
theorem yields_reply (hrd : (S.exec q db view n).1 = [])
    (h : ∀ r, (S.exec q db view n).2 = r → (next r).Yields db Q view (n + 1)) :
    (query q next).Yields db Q view n := by
  refine yields_step fun ws r hout ↦ ?_
  rw [hout] at hrd h
  rw [show ws = [] from hrd]
  exact h r rfl

/-- Where the reply does not matter. -/
theorem yields_read (hrd : (S.exec q db view n).1 = [])
    (h : ∀ r, (next r).Yields db Q view (n + 1)) : (query q next).Yields db Q view n :=
  yields_reply hrd fun r _ ↦ h r

theorem Yields.imp {Q' : S.Result → S.Db → ℕ → Prop} (hQ : ∀ a db' n', Q a db' n' → Q' a db' n')
    (h : p.Yields db Q view n) : p.Yields db Q' view n := by
  induction p generalizing view n with
  | commit a => exact hQ a view n h
  | rollback e => trivial
  | lock k next ih => exact ih h
  | query q next ih => exact ih _ h

/-- A property of the outcome is shown for a refusal, which leaves the state as it is, and for what
the program yields. -/
theorem alone_of_yields {R : Except S.Error S.Result × S.Db × ℕ → Prop}
    (herr : ∀ e n', n ≤ n' → R (.error e, db, n'))
    (h : p.Yields db (fun a db' n' ↦ n ≤ n' → R (.ok a, db', n')) db n) : R (p.alone db [] n) := by
  have hst : ∀ {p : Prog S} {log n'}, n ≤ n' →
      p.Yields db (fun a db' n' ↦ n ≤ n' → R (.ok a, db', n')) (replay db log) n' →
      R (p.alone db log n') := by
    intro p
    induction p with
    | commit a => exact fun hn h ↦ h hn
    | rollback e => exact fun hn _ ↦ herr e _ hn
    | lock k next ih => exact fun hn h ↦ ih hn h
    | query q next ih =>
      intro log n' hn h
      rw [yields_query, ← replay_append] at h
      exact ih _ (hn.trans (Nat.le_succ _)) h
  exact hst le_rfl h

end Yields

end Prog

export Prog (alone_of_yields yields_lock yields_read yields_reply yields_step)

/-! ## Runs of whole transactions -/

section Sequential

variable {Op : Type} {prog : Op → Prog S} {C : S.Db → Op → Prop} {s₀ s s' : S.Db × ℕ}
  {ops : List Op} {passed : List (S.Db × ℕ)} {trace : List (Op × Except S.Error S.Result)}

/-- The states reached from `s₀` by executing whole transactions one after another, where each one
satisfies `C` in the state it starts from. A state is the database and the stamp. -/
inductive Runs (prog : Op → Prog S) (C : S.Db → Op → Prop) (s₀ : S.Db × ℕ) : S.Db × ℕ → Prop
  | refl : Runs prog C s₀ s₀
  | step {s : S.Db × ℕ} (op : Op) : Runs prog C s₀ s → C s.1 op →
      Runs prog C s₀ ((prog op).alone s.1 [] s.2).2

/-- An invariant of every transaction executed alone holds in every state such a run reaches. -/
theorem Runs.invariant {I : S.Db × ℕ → Prop} (h : Runs prog C s₀ s) (init : I s₀)
    (step : ∀ s op, I s → C s.1 op → I ((prog op).alone s.1 [] s.2).2) : I s := by
  induction h with
  | refl => exact init
  | step op _ hC ih => exact step _ op ih hC

/-- Execute the transactions in order, checking `C` before each. -/
def runAll (prog : Op → Prog S) (C : S.Db → Op → Prop) [∀ db op, Decidable (C db op)]
    (s : S.Db × ℕ) : List Op → Option (S.Db × ℕ)
  | [] => some s
  | op :: ops => if C s.1 op then runAll prog C ((prog op).alone s.1 [] s.2).2 ops else none

theorem Runs.head {op : Op} (hC : C s₀.1 op)
    (h : Runs prog C ((prog op).alone s₀.1 [] s₀.2).2 s) : Runs prog C s₀ s := by
  induction h with
  | refl => exact .step op .refl hC
  | step op' _ hC' ih => exact .step op' ih hC'

theorem Runs.of_runAll [∀ db op, Decidable (C db op)]
    (h : runAll prog C s₀ ops = some s) : Runs prog C s₀ s := by
  induction ops generalizing s₀ with
  | nil => cases h; exact .refl
  | cons op ops ih =>
    simp only [runAll] at h
    split at h
    next hC => exact .head hC (ih h)
    · cases h

theorem Runs.exists_of_runAll [∀ db op, Decidable (C db op)] {P : S.Db × ℕ → Prop}
    [DecidablePred P] (ops : List Op) (h : (runAll prog C s₀ ops).any (P ·) = true) :
    ∃ s, Runs prog C s₀ s ∧ P s := by
  obtain ⟨s, hs, hP⟩ := (any_eq_true _ _).mp h
  exact ⟨s, .of_runAll hs, of_decide_eq_true hP⟩

/-- As `Runs`, with the states that the run has passed, latest first. -/
inductive Passes (prog : Op → Prog S) (C : S.Db → Op → Prop) (s₀ : S.Db × ℕ) :
    List (S.Db × ℕ) → S.Db × ℕ → Prop
  | refl : Passes prog C s₀ [] s₀
  | step {passed : List (S.Db × ℕ)} {s : S.Db × ℕ} (op : Op) : Passes prog C s₀ passed s →
      C s.1 op → Passes prog C s₀ (s :: passed) ((prog op).alone s.1 [] s.2).2

/-- If a row is written only where `P` holds of it and of the state before, then every row of a
reached state satisfies `P` with the state before it was last written. -/
theorem Passes.written {R : Type} [DecidableEq R] (rows : S.Db → List R) (P : S.Db → R → Prop)
    (h : Passes prog C s₀ passed s) (step : ∀ (s : S.Db × ℕ) op, C s.1 op →
      ∀ r ∈ rows ((prog op).alone s.1 [] s.2).2.1, r ∉ rows s.1 → P s.1 r) :
    ∀ r ∈ rows s.1, ∀ s1 ∈ passed.find? (fun s1 ↦ r ∉ rows s1.1), P s1.1 r := by
  induction h with
  | refl => exact nofun
  | @step passed s op _ hC ih =>
    intro r hr s1 hs1
    by_cases hold : r ∈ rows s.1
    · rw [List.find?_cons_of_neg (by simpa using hold)] at hs1
      exact ih r hold s1 hs1
    · rw [List.find?_cons_of_pos (by simpa using hold)] at hs1
      cases hs1
      exact step s op hC r hr hold

/-- Execute the transactions in order, checking `C` before each, and keep the states. -/
def passAll (prog : Op → Prog S) (C : S.Db → Op → Prop) [∀ db op, Decidable (C db op)] :
    List (S.Db × ℕ) → S.Db × ℕ → List Op → Option (List (S.Db × ℕ) × S.Db × ℕ)
  | passed, s, [] => some (passed, s)
  | passed, s, op :: ops =>
    if C s.1 op then passAll prog C (s :: passed) ((prog op).alone s.1 [] s.2).2 ops else none

theorem Passes.of_passAll [∀ db op, Decidable (C db op)] {passed' : List (S.Db × ℕ)}
    (h : Passes prog C s₀ passed s)
    (hpass : passAll prog C passed s ops = some (passed', s')) : Passes prog C s₀ passed' s' := by
  induction ops generalizing passed s with
  | nil => cases hpass; exact h
  | cons op ops ih =>
    simp only [passAll] at hpass
    split at hpass
    next hC => exact ih (.step op h hC) hpass
    · cases hpass

theorem Passes.exists_of_passAll [∀ db op, Decidable (C db op)]
    {P : List (S.Db × ℕ) × S.Db × ℕ → Prop} [DecidablePred P] (ops : List Op)
    (h : (passAll prog C [] s₀ ops).any (P ·) = true) : ∃ r, Passes prog C s₀ r.1 r.2 ∧ P r := by
  obtain ⟨r, hr, hP⟩ := (any_eq_true _ _).mp h
  exact ⟨r, .of_passAll .refl hr, of_decide_eq_true hP⟩

/-- As `Runs`, with the requests and what they were answered, latest first. -/
inductive Traces (prog : Op → Prog S) (C : S.Db → Op → Prop) (s₀ : S.Db × ℕ) :
    List (Op × Except S.Error S.Result) → S.Db × ℕ → Prop
  | refl : Traces prog C s₀ [] s₀
  | step {trace : List (Op × Except S.Error S.Result)} {s : S.Db × ℕ} (op : Op) :
      Traces prog C s₀ trace s → C s.1 op →
      Traces prog C s₀ ((op, ((prog op).alone s.1 [] s.2).1) :: trace)
        ((prog op).alone s.1 [] s.2).2

/-- An invariant of what has happened and the state that it has led to. -/
theorem Traces.invariant {I : List (Op × Except S.Error S.Result) → S.Db × ℕ → Prop}
    (h : Traces prog C s₀ trace s) (init : I [] s₀) (step : ∀ trace s op, I trace s → C s.1 op →
      I ((op, ((prog op).alone s.1 [] s.2).1) :: trace) ((prog op).alone s.1 [] s.2).2) :
    I trace s := by
  induction h with
  | refl => exact init
  | step op _ hC ih => exact step _ _ op ih hC

/-- As `runAll`, with the trace. -/
def traceAll (prog : Op → Prog S) (C : S.Db → Op → Prop) [∀ db op, Decidable (C db op)]
    (trace : List (Op × Except S.Error S.Result)) (s : S.Db × ℕ) :
    List Op → Option (List (Op × Except S.Error S.Result) × S.Db × ℕ)
  | [] => some (trace, s)
  | op :: ops =>
    if C s.1 op then
      traceAll prog C ((op, ((prog op).alone s.1 [] s.2).1) :: trace)
        ((prog op).alone s.1 [] s.2).2 ops
    else none

theorem Traces.of_traceAll [∀ db op, Decidable (C db op)]
    {trace' : List (Op × Except S.Error S.Result)} (h : Traces prog C s₀ trace s)
    (htra : traceAll prog C trace s ops = some (trace', s')) : Traces prog C s₀ trace' s' := by
  induction ops generalizing trace s with
  | nil => cases htra; exact h
  | cons op ops ih =>
    simp only [traceAll] at htra
    split at htra
    next hC => exact ih (.step op h hC) htra
    · cases htra

theorem Traces.exists_of_traceAll [∀ db op, Decidable (C db op)]
    {P : List (Op × Except S.Error S.Result) × S.Db × ℕ → Prop} [DecidablePred P] (ops : List Op)
    (h : (traceAll prog C [] s₀ ops).any (P ·) = true) : ∃ r, Traces prog C s₀ r.1 r.2 ∧ P r := by
  obtain ⟨r, hr, hP⟩ := (any_eq_true _ _).mp h
  exact ⟨r, .of_traceAll .refl hr, of_decide_eq_true hP⟩

end Sequential

/-! ## The machine

A transaction can be aborted at any point (`Act.abort`), which covers deadlock victims and lost
connections. -/

/-- What a commit did: who committed, with which answer, on which state and which log. -/
structure Commit (S : Schema) (T : Type) where
  txn : T
  result : S.Result
  before : S.Db
  writes : List S.Write

/-- The committed state after the commit. -/
def Commit.after {T : Type} (c : Commit S T) : S.Db := replay c.before c.writes

/-- The machine's state. A transaction that has ended has no program. -/
structure State (S : Schema) (T : Type) where
  db : S.Db
  stamp : ℕ
  prog : T → Option (Prog S)
  log : T → List S.Write
  holder : S.Key → Option T
  /-- Who holds the lock on a key in shared mode. -/
  sharers : S.Key → List T
  /-- The commits so far, latest first. -/
  commits : List (Commit S T)

/-- What the scheduler does next: let a transaction take a step, or abort it. -/
inductive Act (T : Type) where
  | run (t : T)
  | abort (t : T)
  deriving DecidableEq

/-- The schedule that lets each transaction of the list take its number of steps in turn. -/
def turns {T : Type} (l : List (T × ℕ)) : List (Act T) :=
  l.flatMap fun (t, k) ↦ List.replicate k (.run t)

namespace State

variable {T : Type}

/-- The machine before any transaction has taken a step. -/
def init (db : S.Db) (stamp : ℕ) (prog : T → Prog S) : State S T where
  db := db
  stamp := stamp
  prog t := some (prog t)
  log _ := []
  holder _ := none
  sharers _ := []
  commits := []

/-- The rows a statement of `t` sees: the committed ones and its own. -/
def view (s : State S T) (t : T) : S.Db := replay s.db (s.log t)

/-- The keys that `t` has locked. -/
def held (s : State S T) (t : T) : Set S.Key :=
  {k | match S.shares k with
    | none => s.holder k = some t
    | some k' => t ∈ s.sharers k'}

/-- No other transaction stands in the way of a lock for `t`. -/
def Free (s : State S T) (t : T) (k : S.Key) : Prop :=
  match S.shares k with
  | none => (s.holder k = none ∨ s.holder k = some t) ∧ ∀ u ∈ s.sharers k, u = t
  | some k' => s.holder k' = none ∨ s.holder k' = some t

instance decidableHeld [DecidableEq T] (s : State S T) (t : T) (k : S.Key) :
    Decidable (k ∈ s.held t) :=
  match h : S.shares k with
  | none => decidable_of_iff (s.holder k = some t) (by simp only [held, Set.mem_ofPred_eq, h])
  | some k' => decidable_of_iff (t ∈ s.sharers k') (by simp only [held, Set.mem_ofPred_eq, h])

/-- Give `t` the lock on `k`. -/
def grant (s : State S T) (t : T) (k : S.Key) : State S T :=
  { s with
    holder := match S.shares k with
      | none => Function.update s.holder k (some t)
      | some _ => s.holder
    sharers := match S.shares k with
      | none => s.sharers
      | some k' => Function.update s.sharers k' (t :: s.sharers k') }

variable [DecidableEq T]

instance (s : State S T) (t : T) (k : S.Key) : Decidable (s.Free t k) :=
  match h : S.shares k with
  | none => decidable_of_iff ((s.holder k = none ∨ s.holder k = some t) ∧ ∀ u ∈ s.sharers k, u = t)
      (by simp only [Free, h])
  | some k' => decidable_of_iff (s.holder k' = none ∨ s.holder k' = some t) (by simp only [Free, h])

/-- End `t`: drop its log and release its locks. -/
def finish (s : State S T) (t : T) : State S T where
  db := s.db
  stamp := s.stamp
  prog := Function.update s.prog t none
  log := Function.update s.log t []
  holder k := if s.holder k = some t then none else s.holder k
  sharers k := (s.sharers k).filter (· ≠ t)
  commits := s.commits

/-- One step of the machine; `none` when the step is not possible, which for a lock request means
that another transaction holds the lock. -/
def step (s : State S T) : Act T → Option (State S T)
  | .run t =>
    match s.prog t with
    | none => none
    | some (.commit a) =>
      some { s.finish t with
        db := s.view t
        commits := ⟨t, a, s.db, s.log t⟩ :: s.commits }
    | some (.rollback _) => some (s.finish t)
    | some (.lock k next) =>
      if s.Free t k then
        some { s.grant t k with prog := Function.update s.prog t (some next) }
      else none
    | some (.query q next) =>
      let out := S.exec q s.db (s.view t) s.stamp
      some { s with
        stamp := s.stamp + 1
        prog := Function.update s.prog t (some (next out.2))
        log := Function.update s.log t (s.log t ++ out.1) }
  | .abort t =>
    match s.prog t with
    | none => none
    | some _ => some (s.finish t)

/-- Take the steps in order, checking `C` before each. -/
def runs (C : State S T → Act T → Prop) [∀ s a, Decidable (C s a)] (s : State S T) :
    List (Act T) → Option (State S T)
  | [] => some s
  | a :: acts => if C s a then (s.step a).bind fun s' ↦ s'.runs C acts else none

end State

section Machine

variable {T : Type} [DecidableEq T] {C : State S T → Act T → Prop} {s₀ s s' : State S T} {a : Act T}
  {t u : T} {k : S.Key} {n : ℕ}

/-- The states reached from `s₀` by steps that all satisfy `C`. -/
inductive Reach (C : State S T → Act T → Prop) (s₀ : State S T) : State S T → Prop
  | refl : Reach C s₀ s₀
  | step {s s' : State S T} (a : Act T) : Reach C s₀ s → C s a → s.step a = some s' →
      Reach C s₀ s'

theorem Reach.head {s1 : State S T} (hC : C s₀ a) (hst : s₀.step a = some s1)
    (h : Reach C s1 s) : Reach C s₀ s := by
  induction h with
  | refl => exact .step a .refl hC hst
  | step b _ hC' hst' ih => exact .step b ih hC' hst'

theorem Reach.trans {s1 : State S T} (h : Reach C s₀ s1) (h' : Reach C s1 s) :
    Reach C s₀ s := by
  induction h' with
  | refl => exact h
  | step a _ hC hst ih => exact .step a ih hC hst

/-- What a step does: a transaction ends without a trace, commits, gets a lock or executes a
statement. -/
theorem State.step_cases (h : s.step a = some s') : (∃ t, s' = s.finish t) ∨
    (∃ t r, a = .run t ∧ s.prog t = some (.commit r) ∧
      s' = { s.finish t with db := s.view t, commits := ⟨t, r, s.db, s.log t⟩ :: s.commits }) ∨
    (∃ t k next, a = .run t ∧ s.prog t = some (.lock k next) ∧ s.Free t k ∧
      s' = { s.grant t k with prog := Function.update s.prog t (some next) }) ∨
    ∃ t q next, a = .run t ∧ s.prog t = some (.query q next) ∧ s' = { s with
      stamp := s.stamp + 1
      prog := Function.update s.prog t (some (next (S.exec q s.db (s.view t) s.stamp).2))
      log := Function.update s.log t (s.log t ++ (S.exec q s.db (s.view t) s.stamp).1) } := by
  rcases a with t | t <;> simp only [State.step] at h <;> split at h
  · cases h
  next r hp =>
    cases h
    exact .inr (.inl ⟨t, r, rfl, hp, rfl⟩)
  · cases h
    exact .inl ⟨t, rfl⟩
  next k next hp =>
    split at h
    next hfr =>
      cases h
      exact .inr (.inr (.inl ⟨t, k, next, rfl, hp, hfr, rfl⟩))
    · cases h
  next q next hp =>
    cases h
    exact .inr (.inr (.inr ⟨t, q, next, rfl, hp, rfl⟩))
  · cases h
  · cases h
    exact .inl ⟨t, rfl⟩

/-- Only a commit moves the committed state, and it is recorded. -/
theorem State.step_db (h : s.step a = some s') :
    (s'.db = s.db ∧ s'.commits = s.commits) ∨
      ∃ t r, a = .run t ∧ s.prog t = some (.commit r) ∧ s'.db = s.view t ∧
        s'.commits = ⟨t, r, s.db, s.log t⟩ :: s.commits := by
  obtain ⟨t, rfl⟩ | ⟨t, r, ha, hp, rfl⟩ | ⟨t, k, next, -, -, -, rfl⟩ | ⟨t, q, next, -, -, rfl⟩ :=
    State.step_cases h
  · exact .inl ⟨rfl, rfl⟩
  · exact .inr ⟨t, r, ha, hp, rfl, rfl⟩
  · exact .inl ⟨rfl, rfl⟩
  · exact .inl ⟨rfl, rfl⟩

/-- A step of another transaction leaves this one where it is. -/
theorem State.step_other {a : Act T} {t : T} (h : s.step a = some s')
    (hrun : a ≠ .run t) (habo : a ≠ .abort t) : s'.prog t = s.prog t ∧ s'.log t = s.log t := by
  have hfin : ∀ {u}, t ≠ u → (s.finish u).prog t = s.prog t ∧ (s.finish u).log t = s.log t :=
    fun hne ↦ ⟨update_of_ne hne _ _, update_of_ne hne _ _⟩
  rcases a with u | u <;> simp only [State.step] at h <;> split at h
  · cases h
  · cases h
    exact hfin fun heq ↦ hrun (heq ▸ rfl)
  · cases h
    exact hfin fun heq ↦ hrun (heq ▸ rfl)
  · have hne : t ≠ u := fun heq ↦ hrun (heq ▸ rfl)
    split at h <;> cases h
    exact ⟨update_of_ne hne _ _, rfl⟩
  · have hne : t ≠ u := fun heq ↦ hrun (heq ▸ rfl)
    cases h
    exact ⟨update_of_ne hne _ _, update_of_ne hne _ _⟩
  · cases h
  · cases h
    exact hfin fun heq ↦ habo (heq ▸ rfl)

section Commits

variable {db0 : S.Db} {n0 : ℕ} {prog : T → Prog S}

/-- The committed state is what the commits wrote, one after the other: a transaction that ended in
another way left nothing behind. -/
theorem Reach.db_eq_replay (h : Reach C (State.init db0 n0 prog) s) :
    s.db = replay db0 (s.commits.reverse.flatMap (·.writes)) := by
  induction h with
  | refl => rfl
  | step a _ _ hst ih =>
    rcases State.step_db hst with ⟨hdb, hcom⟩ | ⟨t, r, -, -, hdb, hcom⟩
    · rw [hdb, hcom, ih]
    · rw [hdb, hcom, List.reverse_cons, List.flatMap_append, replay_append, ← ih,
        List.flatMap_singleton, State.view]

/-- What every commit keeps is kept from each commit to the reached state. -/
theorem Reach.kept_since {R : S.Db → S.Db → Prop} (hrefl : ∀ db, R db db)
    (htra : ∀ {db1 db2 db3}, R db1 db2 → R db2 db3 → R db1 db3)
    (h : Reach C (State.init db0 n0 prog) s) (hR : ∀ c ∈ s.commits, R c.before c.after) :
    ∀ c ∈ s.commits, R c.after s.db := by
  induction h with
  | refl => exact nofun
  | step a _ _ hst ih =>
    rcases State.step_db hst with ⟨hdb, hcom⟩ | ⟨t, r, -, -, hdb, hcom⟩
    · rw [hcom] at hR ⊢
      rw [hdb]
      exact ih hR
    · rw [hcom] at hR ⊢
      obtain ⟨hlast, hear⟩ := forall_mem_cons.mp hR
      refine forall_mem_cons.mpr ⟨hdb ▸ hrefl _, fun c hc ↦ ?_⟩
      exact htra (ih hear c hc) (hdb ▸ hlast)

end Commits

/-- What holds in every reached state can be assumed at every step. -/
theorem Reach.strengthen {G : State S T → Prop} (h : Reach C s₀ s)
    (hG : ∀ {s}, Reach C s₀ s → G s) : Reach (fun s a ↦ C s a ∧ G s) s₀ s := by
  induction h with
  | refl => exact .refl
  | step a hrch hC hst ih => exact .step a ih ⟨hC, hG hrch⟩ hst

theorem Reach.of_runs [∀ s a, Decidable (C s a)] {acts : List (Act T)}
    (h : s₀.runs C acts = some s) : Reach C s₀ s := by
  induction acts generalizing s₀ with
  | nil => cases h; exact .refl
  | cons a acts ih =>
    simp only [State.runs] at h
    split at h
    next hC =>
      obtain ⟨s1, hst, hrest⟩ := bind_eq_some_iff.mp h
      exact .head hC hst (ih hrest)
    · cases h

theorem Reach.exists_of_runs [∀ s a, Decidable (C s a)] {P : State S T → Prop}
    [DecidablePred P] (acts : List (Act T))
    (h : (s₀.runs C acts).any (P ·) = true) : ∃ s, Reach C s₀ s ∧ P s := by
  obtain ⟨s, hs, hP⟩ := (any_eq_true _ _).mp h
  exact ⟨s, .of_runs hs, of_decide_eq_true hP⟩

/-! ## Locks

Locks are held to the end of the transaction and are exclusive: this is the behaviour of advisory
transaction locks and of row locks taken by `FOR UPDATE` or by an update. A key can also stand for
the shared mode of another one (`Schema.shares`), which is what `FOR SHARE` asks for. -/

namespace State

theorem held_finish (s : State S T) (hne : u ≠ t) : (s.finish t).held u = s.held u := by
  ext k
  simp only [held, finish, Set.mem_ofPred_eq]
  split
  · by_cases hk : s.holder k = some t
    · simp [hk, hne.symm]
    · rw [if_neg hk]
  · simp [hne]

omit [DecidableEq T] in
theorem held_grant_self (s : State S T) (t : T) (k : S.Key) :
    (s.grant t k).held t = insert k (s.held t) := by
  ext k₁
  rw [Set.mem_insert_iff]
  simp only [grant, held, Set.mem_ofPred_eq]
  rcases hk : S.shares k with _ | k' <;> rcases hk1 : S.shares k₁ with _ | k1' <;> dsimp only
  · by_cases heq : k₁ = k <;> simp [heq]
  · simp [show k₁ ≠ k from fun heq ↦ by simp [heq, hk] at hk1]
  · simp [show k₁ ≠ k from fun heq ↦ by simp [heq, hk] at hk1]
  · by_cases heq : k1' = k'
    · have hkey : k₁ = k := S.shares_inj k₁ k k' (heq ▸ hk1) hk
      simp [heq, hkey]
    · have hne : k₁ ≠ k := by
        rintro rfl
        rw [hk] at hk1
        exact heq (Option.some.inj hk1).symm
      simp [heq, hne]

omit [DecidableEq T] in
/-- A lock that is free for `t` is not taken from another transaction. -/
theorem held_grant_of_free (hne : u ≠ t) (hfr : s.Free t k) :
    (s.grant t k).held u = s.held u := by
  ext k₁
  simp only [grant, held, Set.mem_ofPred_eq]
  rcases hk : S.shares k with _ | k' <;> rcases hk1 : S.shares k₁ with _ | k1' <;> dsimp only
  · simp only [Free, hk] at hfr
    by_cases heq : k₁ = k
    · rcases hfr.1 with hf | hf <;> simp [heq, hf, hne.symm]
    · rw [update_of_ne heq]
  · rfl
  · rfl
  · by_cases heq : k1' = k'
    · simp [heq, hne]
    · rw [update_of_ne heq]

omit [DecidableEq T] in
theorem eq_of_held (hmode : S.shares k = none) (ht : k ∈ s.held t)
    (hu : k ∈ s.held u) : t = u := by
  simp only [held, Set.mem_ofPred_eq, hmode] at ht hu
  exact Option.some.inj (ht.symm.trans hu)

/-- No lock is held exclusively by one transaction and in shared mode by another. -/
def Exclusive (s : State S T) : Prop :=
  ∀ t u k, t ∈ s.sharers k → s.holder k = some u → t = u

omit [DecidableEq T] in
theorem Exclusive.eq_of_held (h : s.Exclusive) {k' : S.Key}
    (hsha : S.shares k = some k') (hk' : S.shares k' = none) (ht : k ∈ s.held t)
    (hu : k' ∈ s.held u) : t = u := by
  simp only [held, Set.mem_ofPred_eq, hsha] at ht
  simp only [held, Set.mem_ofPred_eq, hk'] at hu
  exact h t u k' ht hu

private theorem exclusive_finish (h : s.Exclusive) (t : T) :
    (s.finish t).Exclusive := by
  intro u v k hu hv
  simp only [finish] at hu hv
  split at hv
  · cases hv
  · exact h u v k (mem_of_mem_filter hu) hv

omit [DecidableEq T] in
private theorem exclusive_grant (h : s.Exclusive) (hfr : s.Free t k) :
    (s.grant t k).Exclusive := by
  intro u v k₁ hu hv
  rcases hk : S.shares k with _ | k' <;> simp only [grant, hk] at hu hv <;>
    simp only [Free, hk] at hfr
  · by_cases heq : k₁ = k
    · subst heq
      rw [update_self] at hv
      exact (hfr.2 u hu).trans (Option.some.inj hv)
    · rw [update_of_ne heq] at hv
      exact h u v k₁ hu hv
  · by_cases heq : k₁ = k'
    · subst heq
      rw [update_self] at hu
      rcases mem_cons.mp hu with rfl | hu
      · rcases hfr with hf | hf
        · rw [hf] at hv
          cases hv
        · exact Option.some.inj (hf.symm.trans hv)
      · exact h u v k₁ hu hv
    · rw [update_of_ne heq] at hu
      exact h u v k₁ hu hv

theorem Exclusive.step (h : s.Exclusive) (hst : s.step a = some s') :
    s'.Exclusive := by
  obtain ⟨t, rfl⟩ | ⟨t, r, -, -, rfl⟩ | ⟨t, k, next, -, -, hfr, rfl⟩ | ⟨t, q, next, -, -, rfl⟩ :=
    step_cases hst
  · exact exclusive_finish h t
  · exact exclusive_finish h t
  · exact exclusive_grant h hfr
  · exact h

end State

variable {db : S.Db} {prog : T → Prog S}

theorem exclusive_of_reach (h : Reach C (State.init db n prog) s) : s.Exclusive := by
  induction h with
  | refl => exact nofun
  | step a _ _ hst ih => exact ih.step hst

/-! ## The proof rule

A condition on a run speaks of the transaction that acts (`Acting`) or of a commit and where the
others are then (`Apart`). -/

/-- A transaction in progress: the locks it holds, its log and the rest of its program. -/
structure Local (S : Schema) where
  held : Set S.Key
  log : List S.Write
  prog : Prog S

/-- The transaction `t` of `s`, which still has to execute `p`. -/
def State.txn (s : State S T) (t : T) (p : Prog S) : Local S where
  held := s.held t
  log := s.log t
  prog := p

/-- The condition on a step that the transaction taking it satisfies `Q`. -/
def State.Acting (Q : Local S → S.Db → Prop) (s : State S T) : Act T → Prop
  | .run t =>
    match s.prog t with
    | none => True
    | some p => Q (s.txn t p) s.db
  | .abort _ => True

instance (Q : Local S → S.Db → Prop) [∀ l db, Decidable (Q l db)] (s : State S T) (a : Act T) :
    Decidable (s.Acting Q a) :=
  match a with
  | .run t =>
    match h : s.prog t with
    | none => .isTrue (by simp [State.Acting, h])
    | some p => decidable_of_iff (Q (s.txn t p) s.db) (by simp [State.Acting, h])
  | .abort _ => .isTrue trivial

omit [DecidableEq T] in
theorem State.Acting.of_prog {Q : Local S → S.Db → Prop} (h : s.Acting Q (.run t))
    (hp : s.prog t = some p) : Q (s.txn t p) s.db := by
  rwa [State.Acting, hp] at h

/-- The acting transaction does not commit while another one is at a point it clashes with. -/
def State.Apart (Clash : Local S → Local S → Prop) (s : State S T) : Act T → Prop
  | .run t =>
    match s.prog t with
    | some (.commit a) => ∀ u, u ≠ t → ∀ p ∈ s.prog u, ¬Clash (s.txn t (.commit a)) (s.txn u p)
    | _ => True
  | .abort _ => True

omit [DecidableEq T] in
theorem State.Apart.not_clash {Clash : Local S → Local S → Prop} {a : S.Result}
    (h : s.Apart Clash (.run t)) (ht : s.prog t = some (.commit a)) (hne : u ≠ t)
    (hu : s.prog u = some p) : ¬Clash (s.txn t (.commit a)) (s.txn u p) := by
  rw [State.Apart, ht] at h
  exact h u hne p hu

instance [Fintype T] (Clash : Local S → Local S → Prop) [∀ l l', Decidable (Clash l l')]
    (s : State S T) (a : Act T) : Decidable (s.Apart Clash a) :=
  match a with
  | .run t =>
    match h : s.prog t with
    | some (.commit a) =>
      decidable_of_iff (∀ u, u ≠ t → ∀ p ∈ s.prog u, ¬Clash (s.txn t (.commit a)) (s.txn u p))
        (by simp only [State.Apart, h])
    | some (.rollback _) | some (.lock _ _) | some (.query _ _) | none =>
      .isTrue (by simp only [State.Apart, h])
  | .abort _ => .isTrue trivial

/-- As `Apart`, for a clash that depends on which two transactions they are. -/
def State.ApartBy (Clash : T → T → Local S → Prop) (s : State S T) : Act T → Prop
  | .run t =>
    match s.prog t with
    | some (.commit _) => ∀ u, u ≠ t → ∀ p ∈ s.prog u, ¬Clash t u (s.txn u p)
    | _ => True
  | .abort _ => True

omit [DecidableEq T] in
theorem State.ApartBy.not_clash {Clash : T → T → Local S → Prop} {a : S.Result}
    (h : s.ApartBy Clash (.run t)) (ht : s.prog t = some (.commit a)) (hne : u ≠ t)
    (hu : s.prog u = some p) : ¬Clash t u (s.txn u p) := by
  rw [State.ApartBy, ht] at h
  exact h u hne p hu

instance [Fintype T] (Clash : T → T → Local S → Prop)
    [∀ (s : State S T) t u p, Decidable (Clash t u (s.txn u p))] (s : State S T) (a : Act T) :
    Decidable (s.ApartBy Clash a) :=
  match a with
  | .run t =>
    match h : s.prog t with
    | some (.commit _) =>
      decidable_of_iff (∀ u, u ≠ t → ∀ p ∈ s.prog u, ¬Clash t u (s.txn u p))
        (by simp only [State.ApartBy, h])
    | some (.rollback _) | some (.lock _ _) | some (.query _ _) | none =>
      .isTrue (by simp only [State.ApartBy, h])
  | .abort _ => .isTrue trivial

/-- `I` holds of the committed state, each transaction in progress satisfies its assertion `A`,
and each commit so far satisfied `P`. -/
structure Holds (I : S.Db → ℕ → Prop) (A : T → Local S → S.Db → ℕ → Prop)
    (P : Commit S T → Prop) (s : State S T) : Prop where
  committed : I s.db s.stamp
  running : ∀ t p, s.prog t = some p → A t (s.txn t p) s.db s.stamp
  history : ∀ c ∈ s.commits, P c

/-- The obligations of a proof by assertions: each statement and each lock request moves the
transaction from one assertion to the next, and a commit keeps the invariant and the assertions of
all other transactions. Steps are those that satisfy `C`. -/
structure Outline (C : State S T → Act T → Prop) (I : S.Db → ℕ → Prop)
    (A : T → Local S → S.Db → ℕ → Prop) (P : Commit S T → Prop) : Prop where
  tick : ∀ {db n}, I db n → I db (n + 1)
  tickLocal : ∀ {t l db n}, A t l db n → A t l db (n + 1)
  query : ∀ {s t q next}, Holds I A P s → C s (.run t) → s.prog t = some (.query q next) →
    A t (.mk (s.held t) (s.log t ++ (S.exec q s.db (s.view t) s.stamp).1)
      (next (S.exec q s.db (s.view t) s.stamp).2)) s.db (s.stamp + 1)
  lock : ∀ {s t k next}, Holds I A P s → C s (.run t) → s.prog t = some (.lock k next) →
    s.Free t k → A t (.mk (insert k (s.held t)) (s.log t) next) s.db s.stamp
  commit : ∀ {s t a}, Holds I A P s → C s (.run t) → s.prog t = some (.commit a) →
    I (s.view t) s.stamp
  event : ∀ {s t a}, Holds I A P s → C s (.run t) → s.prog t = some (.commit a) →
    P ⟨t, a, s.db, s.log t⟩
  stable : ∀ {s t a u p}, Holds I A P s → C s (.run t) → s.prog t = some (.commit a) → u ≠ t →
    s.prog u = some p → A u (s.txn u p) (s.view t) s.stamp

namespace Outline

variable {I : S.Db → ℕ → Prop} {A : T → Local S → S.Db → ℕ → Prop} {P : Commit S T → Prop}

private theorem finish_txn (s : State S T) (hne : u ≠ t) (p : Prog S) :
    (s.finish t).txn u p = s.txn u p := by
  rw [State.txn, State.txn, State.held_finish s hne]
  simp [State.finish, update_of_ne hne]

private theorem holds_finish (h : Holds I A P s) (t : T) :
    Holds I A P (s.finish t) := by
  refine ⟨h.committed, fun u p hu ↦ ?_, h.history⟩
  by_cases hne : u = t
  · subst hne; simp [State.finish] at hu
  · rw [finish_txn s hne]
    exact h.running u p (by simpa [State.finish, update_of_ne hne] using hu)

private theorem holds_commit (o : Outline C I A P) (h : Holds I A P s)
    {a : S.Result} (hC : C s (.run t)) (hp : s.prog t = some (.commit a)) :
    Holds I A P { s.finish t with
      db := s.view t
      commits := ⟨t, a, s.db, s.log t⟩ :: s.commits } := by
  refine ⟨o.commit h hC hp, fun u p hu ↦ ?_, ?_⟩
  · have hne : u ≠ t := by
      rintro rfl
      simp [State.finish] at hu
    have hu' : s.prog u = some p := by
      simpa [State.finish, update_of_ne hne] using hu
    have := o.stable h hC hp hne hu'
    rwa [← finish_txn s hne] at this
  · intro c hc
    rcases mem_cons.mp hc with rfl | hc
    · exact o.event h hC hp
    · exact h.history c hc

private theorem holds_lock (o : Outline C I A P) (h : Holds I A P s)
    {next : Prog S} (hC : C s (.run t)) (hp : s.prog t = some (.lock k next)) (hfr : s.Free t k) :
    Holds I A P { s.grant t k with prog := Function.update s.prog t (some next) } := by
  refine ⟨h.committed, fun u p hu ↦ ?_, h.history⟩
  by_cases hne : u = t
  · subst hne
    obtain rfl : next = p := by simpa using hu
    have hnx := o.lock h hC hp hfr
    rw [← State.held_grant_self s u k] at hnx
    exact hnx
  · have hu' : s.prog u = some p := by simpa [update_of_ne hne] using hu
    have hrun := h.running u p hu'
    rw [State.txn, ← State.held_grant_of_free hne hfr] at hrun
    exact hrun

private theorem holds_query (o : Outline C I A P) (h : Holds I A P s)
    {q : S.Query} {next : S.Reply q → Prog S} (hC : C s (.run t))
    (hp : s.prog t = some (.query q next)) : Holds I A P { s with
      stamp := s.stamp + 1
      prog := Function.update s.prog t (some (next (S.exec q s.db (s.view t) s.stamp).2))
      log := Function.update s.log t (s.log t ++ (S.exec q s.db (s.view t) s.stamp).1) } := by
  refine ⟨o.tick h.committed, fun u p hu ↦ ?_, h.history⟩
  by_cases hne : u = t
  · subst hne
    obtain rfl : next (S.exec q s.db (s.view u) s.stamp).2 = p := by simpa using hu
    simpa [State.txn, State.held] using o.query h hC hp
  · have hu' : s.prog u = some p := by simpa [update_of_ne hne] using hu
    have := o.tickLocal (h.running u p hu')
    simpa [State.txn, State.held, update_of_ne hne] using this

/-- One step keeps the invariant, the assertions and the history. -/
theorem holds_step (o : Outline C I A P) (h : Holds I A P s) (hC : C s a)
    (hst : s.step a = some s') : Holds I A P s' := by
  obtain ⟨t, rfl⟩ | ⟨t, r, rfl, hp, rfl⟩ | ⟨t, k, next, rfl, hp, hfr, rfl⟩ |
    ⟨t, q, next, rfl, hp, rfl⟩ := State.step_cases hst
  · exact holds_finish h t
  · exact holds_commit o h hC hp
  · exact holds_lock o h hC hp hfr
  · exact holds_query o h hC hp

/-- Every state reached from one where the outline holds satisfies it. -/
theorem holds_of_reach (o : Outline C I A P) (h0 : Holds I A P s₀)
    (h : Reach C s₀ s) : Holds I A P s := by
  induction h with
  | refl => exact h0
  | step a _ hC hst ih => exact o.holds_step ih hC hst

omit [DecidableEq T] in
/-- The outline holds at the start if the initial database satisfies the invariant and each
program satisfies its first assertion, with no lock held and nothing written. -/
theorem holds_init (hI : I db n) (hA : ∀ t, A t ⟨∅, [], prog t⟩ db n) :
    Holds I A P (State.init db n prog) where
  committed := hI
  running t p hp := by
    obtain rfl : prog t = p := by simpa [State.init] using hp
    have hhd : (State.init db n prog).held t = ∅ := by
      ext k
      simp only [State.held, State.init, Set.mem_ofPred_eq, Set.mem_empty_iff_false, iff_false]
      split <;> simp
    rw [State.txn, hhd]
    exact hA t
  history c hc := by simp [State.init] at hc

end Outline

/-! ## Drawn ids

Every statement draws the machine's stamp and advances it. The stamp plays the sequences behind
identity columns and generated ids: values are unique, they are drawn in execution order, and a
rolled-back transaction leaves a gap. -/

section Ids

variable {ids : S.Write → List ℕ}

/-- A statement gives the rows it inserts its own stamp. -/
def DrawsStamp (ids : S.Write → List ℕ) : Prop :=
  ∀ q committed view n, ∀ w ∈ (S.exec q committed view n).1, ∀ i ∈ ids w, i = n

/-- The ids in the logs are drawn, and no two transactions have the same. -/
structure State.Distinct (ids : S.Write → List ℕ) (s : State S T) : Prop where
  drawn : ∀ t, ∀ w ∈ s.log t, ∀ i ∈ ids w, i < s.stamp
  apart : ∀ t u, t ≠ u → ∀ w ∈ s.log t, ∀ v ∈ s.log u, ∀ i ∈ ids w, i ∉ ids v

omit [DecidableEq T] in
private theorem State.Distinct.mono (h : s.Distinct ids)
    (hsta : s'.stamp = s.stamp) (hlog : ∀ u, ∀ w ∈ s'.log u, w ∈ s.log u) : s'.Distinct ids where
  drawn t w hw i hi := hsta ▸ h.drawn t w (hlog t w hw) i hi
  apart t u hne w hw v hv := h.apart t u hne w (hlog t w hw) v (hlog u v hv)

private theorem distinct_finish (h : s.Distinct ids) (t : T) :
    (s.finish t).Distinct ids := by
  refine h.mono rfl fun u w hw ↦ ?_
  by_cases hu : u = t
  · simp [State.finish, hu] at hw
  · simpa [State.finish, update_of_ne hu] using hw

private theorem distinct_query (hids : DrawsStamp ids) (h : s.Distinct ids)
    (t : T) (q : S.Query) (p : Option (Prog S)) :
    State.Distinct ids { s with
      stamp := s.stamp + 1
      prog := Function.update s.prog t p
      log := Function.update s.log t (s.log t ++ (S.exec q s.db (s.view t) s.stamp).1) } := by
  -- a row in the new logs was in the old one of its transaction, or has the stamp as its id
  have hnew : ∀ u,
    ∀ w ∈ Function.update s.log t (s.log t ++ (S.exec q s.db (s.view t) s.stamp).1) u,
      ∀ i ∈ ids w, (w ∈ s.log u ∧ i < s.stamp) ∨ (u = t ∧ i = s.stamp) := by
    intro u w hw i hi
    by_cases hu : u = t
    · subst hu
      rw [update_self] at hw
      rcases mem_append.mp hw with hold | hout
      · exact .inl ⟨hold, h.drawn u w hold i hi⟩
      · exact .inr ⟨rfl, hids q _ _ _ w hout i hi⟩
    · rw [update_of_ne hu] at hw
      exact .inl ⟨hw, h.drawn u w hw i hi⟩
  refine ⟨fun u w hw i hi ↦ ?_, fun u v hne w hw x hx i hi hi' ↦ ?_⟩
  · rcases hnew u w hw i hi with ⟨-, hlt⟩ | ⟨-, rfl⟩
    · exact Nat.lt_succ_of_lt hlt
    · exact Nat.lt_succ_self _
  · rcases hnew u w hw i hi with ⟨hw', hlt⟩ | ⟨hu, heq⟩ <;>
      rcases hnew v x hx i hi' with ⟨hx', hlt'⟩ | ⟨hv, heq'⟩
    · exact h.apart u v hne w hw' x hx' i hi hi'
    · exact hlt.ne heq'
    · exact hlt'.ne heq
    · exact hne (hu.trans hv.symm)

/-- In every reached state the transactions have inserted rows with different ids. -/
theorem distinct_of_reach (hids : DrawsStamp ids) (h : Reach C (State.init db n prog) s) :
    s.Distinct ids := by
  induction h with
  | refl => exact ⟨fun t w hw ↦ by simp [State.init] at hw, fun t u _ w hw ↦ by
      simp [State.init] at hw⟩
  | step a _ _ hst ih =>
    obtain ⟨t, rfl⟩ | ⟨t, r, -, -, rfl⟩ | ⟨t, k, next, -, -, -, rfl⟩ | ⟨t, q, next, -, -, rfl⟩ :=
      State.step_cases hst
    · exact distinct_finish ih t
    · exact (distinct_finish ih t).mono rfl fun _ _ hw ↦ hw
    · exact ih.mono rfl fun _ _ hw ↦ hw
    · exact distinct_query hids ih t q _

end Ids

end Machine

export Runs (exists_of_runAll)
export Reach (exists_of_runs)
export State (eq_of_held)

end FuelGrid.Sql
