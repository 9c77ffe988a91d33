import FuelGrid.Concurrent.Process
import FuelGrid.Sql.Txn

/-!
# Client processes and their sessions

A transaction of `Txn` is all that its client does. Here the client is a process of its own: it
opens sessions on several connections, keeps a transaction open on one while it works on another,
learns that a statement has failed and decides what to do about it.

The server is the state of the machine of `Txn`, with a session of a process in the place of a
transaction; what a session does next is up to its process, so the programs and the list of commits
stay empty. Every operation can fail:

* a statement that fails leaves its transaction aborted, with its locks, until the client rolls
  back;
* a commit can fail before it took effect or after it (`Fault.answerLost`);
* the server can end a session on its own (`World.lose`), as it does with one that sits idle in a
  transaction for too long. Its locks are gone at once; the client finds out at its next statement.

`World.history` is what an observer has seen, latest first: what processes were noted to do, and the
changes as they were committed.
-/

namespace FuelGrid.Sql

open Concurrent

/-- Something that was observed. -/
inductive Entry (S : Schema) (T C N : Type) where
  /-- Process `t` did something worth noting. -/
  | note (t : T) (n : N)
  /-- A session committed a change. -/
  | wrote (x : T × C) (w : S.Write)
  /-- Process `t` was killed. -/
  | gone (t : T)

/-- The server, which sessions it has given up on, and what has happened. -/
structure World (S : Schema) (T C N : Type) where
  server : State S (T × C)
  /-- The transaction of the session is aborted or its connection is lost. -/
  broken : T × C → Bool
  history : List (Entry S T C N)

/-- The operations of a process. -/
inductive Op (S : Schema) (C N : Type) where
  | begin (c : C)
  | query (c : C) (q : S.Query)
  | lock (c : C) (k : S.Key)
  | tryLock (c : C) (k : S.Key)
  | commit (c : C)
  | rollback (c : C)
  | note (n : S.Db → N)

/-- What a process is answered: whether the operation succeeded, and the reply of a statement that
did. A lock that was tried for was got or not. -/
abbrev Op.Reply {S : Schema} {C N : Type} : Op S C N → Type
  | .begin _ => Bool
  | .query _ q => Option (S.Reply q)
  | .lock _ _ => Bool
  | .tryLock _ _ => Option Bool
  | .commit _ => Bool
  | .rollback _ => Unit
  | .note _ => Unit

inductive Fault where
  | none
  /-- The operation fails. -/
  | refused
  /-- The operation fails for the client; a commit has taken effect. -/
  | answerLost
  deriving DecidableEq

variable {S : Schema} {T C N : Type} {u : Unit}

namespace World

/-- Before any process has done anything. -/
def init (db : S.Db) (stamp : ℕ) : World S T C N where
  server := {
    db
    stamp
    prog := fun _ ↦ none
    log := fun _ ↦ []
    holder := fun _ ↦ none
    sharers := fun _ ↦ []
    commits := [] }
  broken _ := false
  history := []

/-- The keys that a session has locked. -/
def held (w : World S T C N) (x : T × C) : Set S.Key := w.server.held x

def addNote (w : World S T C N) (t : T) (n : N) : World S T C N :=
  { w with history := .note t n :: w.history }

/-- Give a session the lock on a key. -/
def grant (w : World S T C N) (x : T × C) (k : S.Key) : World S T C N :=
  { w with server := w.server.grant x k }

variable [DecidableEq T] [DecidableEq C]

/-- End the transaction of a session and forget what was wrong with it. -/
def close (w : World S T C N) (x : T × C) : World S T C N :=
  { w with server := w.server.finish x, broken := Function.update w.broken x false }

/-- The server ends a session. -/
def lose (w : World S T C N) (x : T × C) : World S T C N :=
  { w with server := w.server.finish x, broken := Function.update w.broken x true }

/-- A statement has failed; the transaction is aborted. -/
def fail (w : World S T C N) (x : T × C) : World S T C N :=
  { w with broken := Function.update w.broken x true }

/-- Log what a statement writes. -/
def append (w : World S T C N) (x : T × C) (ws : List S.Write) : World S T C N :=
  { w with server := { w.server with
      stamp := w.server.stamp + 1
      log := Function.update w.server.log x (w.server.log x ++ ws) } }

/-- Commit the transaction of a session. -/
def commit (w : World S T C N) (x : T × C) : World S T C N where
  server := { w.server.finish x with db := w.server.view x }
  broken := Function.update w.broken x false
  history := (w.server.log x).reverse.map (.wrote x) ++ w.history

/-- Perform an operation of process `t`; `none` when a lock is not free. -/
def perform (w : World S T C N) (t : T) :
    (o : Op S C N) → Fault → Option (o.Reply × World S T C N)
  | .begin c, f => some (if f = .none then (true, w.close (t, c)) else (false, w))
  | .query c q, f =>
    some (if f = .none ∧ w.broken (t, c) = false then
      let out := S.exec q w.server.db (w.server.view (t, c)) w.server.stamp
      (some out.2, w.append (t, c) out.1)
    else (none, w.fail (t, c)))
  | .lock c k, f =>
    if f = .none ∧ w.broken (t, c) = false then
      if w.server.Free (t, c) k then some (true, w.grant (t, c) k) else none
    else some (false, w.fail (t, c))
  | .tryLock c k, f =>
    some (if f = .none ∧ w.broken (t, c) = false then
      if w.server.Free (t, c) k then (some true, w.grant (t, c) k) else (some false, w)
    else (none, w.fail (t, c)))
  | .commit c, f =>
    some (if w.broken (t, c) = true ∨ f = .refused then (false, w.close (t, c))
      else (decide (f = .none), w.commit (t, c)))
  | .rollback c, _ => some ((), w.close (t, c))
  | .note n, _ => some ((), w.addNote t (n w.server.db))

/-- What is left when a process with the connections `conns` is killed. -/
def kill (w : World S T C N) (conns : List C) (t : T) : World S T C N :=
  { conns.foldl (fun w c ↦ w.close (t, c)) w with history := .gone t :: w.history }

end World

/-! ## What the operations do -/

namespace World

variable [DecidableEq T] [DecidableEq C] {w w' : World S T C N} {t : T} {c : C} {f : Fault}
  {x y : T × C} {k : S.Key}

theorem held_close_self (w : World S T C N) (x : T × C) : (w.close x).held x = ∅ := by
  ext k
  simp only [held, close, State.held, State.finish, Set.mem_ofPred_eq, Set.mem_empty_iff_false,
    iff_false]
  split
  · split <;> simp_all
  · simp

theorem held_close_of_ne (hne : y ≠ x) : (w.close x).held y = w.held y :=
  State.held_finish w.server hne

theorem held_close_subset (w : World S T C N) (x y : T × C) : (w.close x).held y ⊆ w.held y := by
  by_cases h : y = x
  · rw [h, held_close_self]
    exact empty_subset _
  · rw [held_close_of_ne h]

/-- A session that the server has ended holds what a closed one does. -/
theorem held_lose (w : World S T C N) (x y : T × C) : (w.lose x).held y = (w.close x).held y := rfl

omit [DecidableEq T] [DecidableEq C] in
theorem held_grant_self (w : World S T C N) (x : T × C) (k : S.Key) :
    (w.grant x k).held x = insert k (w.held x) :=
  State.held_grant_self w.server x k

omit [DecidableEq T] [DecidableEq C] in
theorem held_grant_of_ne (hne : y ≠ x) (hfr : w.server.Free x k) :
    (w.grant x k).held y = w.held y :=
  State.held_grant_of_free hne hfr

theorem log_close_self (w : World S T C N) (x : T × C) : (w.close x).server.log x = [] :=
  update_self ..

theorem log_close_of_ne (hne : y ≠ x) : (w.close x).server.log y = w.server.log y :=
  update_of_ne hne ..

theorem log_append_self (w : World S T C N) (x : T × C) (ws : List S.Write) :
    (w.append x ws).server.log x = w.server.log x ++ ws :=
  update_self ..

theorem log_append_of_ne (hne : y ≠ x) (ws : List S.Write) :
    (w.append x ws).server.log y = w.server.log y :=
  update_of_ne hne ..

theorem broken_fail_of_ne (hne : y ≠ x) : (w.fail x).broken y = w.broken y :=
  update_of_ne hne ..

theorem broken_close_of_ne (hne : y ≠ x) : (w.close x).broken y = w.broken y :=
  update_of_ne hne ..

theorem broken_lose_of_ne (hne : y ≠ x) : (w.lose x).broken y = w.broken y :=
  update_of_ne hne ..

variable {ok : Bool}

theorem perform_begin (h : w.perform t (.begin c) f = some (ok, w')) :
    (ok = false ∧ w' = w) ∨ (ok = true ∧ w' = w.close (t, c)) := by
  simp only [perform, some.injEq] at h
  split at h <;> cases h
  · exact .inr ⟨rfl, rfl⟩
  · exact .inl ⟨rfl, rfl⟩

theorem perform_query {q : S.Query} {r : Option (S.Reply q)}
    (h : w.perform t (.query c q) f = some (r, w')) :
    (r = none ∧ w' = w.fail (t, c)) ∨
      (f = .none ∧ w.broken (t, c) = false ∧ ∃ ws a,
        S.exec q w.server.db (w.server.view (t, c)) w.server.stamp = (ws, a) ∧
        r = some a ∧ w' = w.append (t, c) ws) := by
  simp only [perform, some.injEq] at h
  split at h <;> cases h
  next hlv => exact .inr ⟨hlv.1, hlv.2, _, _, rfl, rfl, rfl⟩
  · exact .inl ⟨rfl, rfl⟩

theorem perform_lock (h : w.perform t (.lock c k) f = some (ok, w')) :
    (ok = false ∧ w' = w.fail (t, c)) ∨
      (w.broken (t, c) = false ∧ w.server.Free (t, c) k ∧ ok = true ∧ w' = w.grant (t, c) k) := by
  simp only [perform] at h
  split at h
  next hlv =>
    split at h
    next hfr =>
      cases h
      exact .inr ⟨hlv.2, hfr, rfl, rfl⟩
    · cases h
  · cases h
    exact .inl ⟨rfl, rfl⟩

theorem perform_tryLock {got : Option Bool} (h : w.perform t (.tryLock c k) f = some (got, w')) :
    (got = none ∧ w' = w.fail (t, c)) ∨ (w.broken (t, c) = false ∧
      ((got = some false ∧ w' = w) ∨
        (w.server.Free (t, c) k ∧ got = some true ∧ w' = w.grant (t, c) k))) := by
  simp only [perform, some.injEq] at h
  split at h
  next hlv =>
    split at h <;> cases h
    next hfr => exact .inr ⟨hlv.2, .inr ⟨hfr, rfl, rfl⟩⟩
    · exact .inr ⟨hlv.2, .inl ⟨rfl, rfl⟩⟩
  · cases h
    exact .inl ⟨rfl, rfl⟩

theorem perform_commit (h : w.perform t (.commit c) f = some (ok, w')) :
    (ok = false ∧ w' = w.close (t, c)) ∨ (w.broken (t, c) = false ∧ w' = w.commit (t, c)) := by
  simp only [perform, some.injEq] at h
  split at h <;> cases h
  · exact .inl ⟨rfl, rfl⟩
  next hlv => exact .inr ⟨by simpa using fun hbro ↦ hlv (.inl hbro), rfl⟩

theorem perform_rollback (h : w.perform t (.rollback c) f = some (u, w')) :
    w' = w.close (t, c) := by
  cases h
  rfl

theorem perform_note {n : S.Db → N} (h : w.perform t (.note n) f = some (u, w')) :
    w' = w.addNote t (n w.server.db) := by
  cases h
  rfl

theorem perform_query_of_live (q : S.Query) (hlv : w.broken (t, c) = false) :
    w.perform t (.query c q) .none =
      some (some (S.exec q w.server.db (w.server.view (t, c)) w.server.stamp).2,
        w.append (t, c) (S.exec q w.server.db (w.server.view (t, c)) w.server.stamp).1) :=
  congrArg some (if_pos ⟨rfl, hlv⟩)

theorem perform_tryLock_of_live (hlv : w.broken (t, c) = false) :
    w.perform t (.tryLock c k) .none =
      some (if w.server.Free (t, c) k then (some true, w.grant (t, c) k) else (some false, w)) :=
  congrArg some (if_pos ⟨rfl, hlv⟩)

end World

/-- Sessions as the operations of processes, each with the connections `conns`. -/
@[reducible] def sessions (S : Schema) (T N : Type) {C : Type} (conns : List C) [DecidableEq T]
    [DecidableEq C] : Effects T where
  Shared := World S T C N
  Op := Op S C N
  Reply := Op.Reply
  Choice := Fault
  Event := T × C
  perform t o f w := w.perform t o f
  occur x w := w.lose x
  kill t w := w.kill conns t

/-! ## Transactions of a process

`FOR UPDATE SKIP LOCKED` is `Op.tryLock`, which looks at the locks instead of waiting. -/

/-- How a transaction ended for its client: it got no connection, a statement failed, it was rolled
back for a reason of its own, its commit failed, or it is committed. -/
inductive Outcome (ε ρ : Type) where
  | unavailable
  | failed
  | refused (e : ε)
  | uncommitted (a : ρ)
  | committed (a : ρ)

/-- A process with sessions. -/
abbrev Client (S : Schema) (T N : Type) {C : Type} (conns : List C) [DecidableEq T] [DecidableEq C]
    (α : Type) : Type :=
  Proc (sessions S T N conns) α

namespace Client

variable [DecidableEq T] [DecidableEq C] {conns : List C}

abbrev begin (c : C) : Client S T N conns Bool := .perform (E := sessions S T N conns) (.begin c)

abbrev query (c : C) (q : S.Query) : Client S T N conns (Option (S.Reply q)) :=
  .perform (E := sessions S T N conns) (.query c q)

abbrev lock (c : C) (k : S.Key) : Client S T N conns Bool :=
  .perform (E := sessions S T N conns) (.lock c k)

abbrev tryLock (c : C) (k : S.Key) : Client S T N conns (Option Bool) :=
  .perform (E := sessions S T N conns) (.tryLock c k)

abbrev commit (c : C) : Client S T N conns Bool := .perform (E := sessions S T N conns) (.commit c)

abbrev rollback (c : C) : Client S T N conns Unit :=
  .perform (E := sessions S T N conns) (.rollback c)

abbrev note (n : S.Db → N) : Client S T N conns Unit :=
  .perform (E := sessions S T N conns) (.note n)

/-- Execute the rest of a transaction on a connection. -/
def transact (c : C) : Prog S → Client S T N conns (Outcome S.Error S.Result)
  | .commit a => do
    let ok ← commit c
    pure (if ok then .committed a else .uncommitted a)
  | .rollback e => do
    rollback c
    pure (.refused e)
  | .lock k next => do
    let ok ← lock c k
    if ok then transact c next
    else do
      rollback c
      pure .failed
  | .query q next => do
    match ← query c q with
    | some r => transact c (next r)
    | none => do
      rollback c
      pure .failed

/-- Execute a transaction on a connection. -/
def runTxn (c : C) (p : Prog S) : Client S T N conns (Outcome S.Error S.Result) := do
  let ok ← begin c
  if ok then transact c p else pure .unavailable

end Client

end FuelGrid.Sql
