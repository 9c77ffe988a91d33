import Mathlib.Data.List.Sort
import FuelGrid.Events.Passes

/-!
# Delivery through the outbox

An event is marked published only after a dispatch in which every handler returned `nil`; it is
dead-lettered only after `maxOutboxAttempts` recorded failures since its insertion or its last
requeue; it is never both; and one that is neither is taken by the next poll that comes by
(`DeliveryLaw`).

That a published event is not dispatched again rests on the locks of the poll. A pass holds them in
a transaction that is idle while the handlers run, and the connections of the pool have an
`idle_in_transaction_session_timeout`. When the server ends the session of a pass in the middle of
its batch, another pass polls the rest, dispatches it and marks it published, and the first pass,
which does not look at its session before its first `UPDATE`, dispatches it once more.
-/

namespace FuelGrid.Events

open Sql Concurrent

variable {H : Schema} {env : Env} {T : Type} [DecidableEq T] {bus : Bus H} {w : AppWorld H env T}
  {ids : List Uuid} {x : T × Conn} {limit : ℕ}

/-! ## Eligibility

A poll takes the rows that are pending and free, in the order of its query and up to its limit. -/

section Eligible

variable {u : T} {id : Uuid} {r : OutboxRow} {batch : List Polled}

/-- The state after a row was locked and looked at. -/
def look (u : T) (id : Uuid) (w : AppWorld H env T) : AppWorld H env T :=
  (w.grant (u, .outbox) (.row id)).append (u, .outbox) []

private theorem log_look (hlog : w.server.log (u, .outbox) = []) :
    (look u id w).server.log (u, .outbox) = [] := by
  rw [look, World.log_append_self, append_nil]
  exact hlog

private theorem alone_lockRows_cons (hlv : w.broken (u, .outbox) = false)
    (hlog : w.server.log (u, .outbox) = []) (hroom : ¬limit ≤ batch.length) :
    (lockRows env limit (id :: ids) batch).alone u Fault.none w =
      if w.server.Free (u, .outbox) (.row id) then
        (lockRows env limit ids (batch ++ (lockedRow w.server.db.outbox id).toList)).alone
          u Fault.none (look u id w)
      else (lockRows env limit ids batch).alone u Fault.none w := by
  rw [lockRows, if_neg hroom, Proc.alone_perform]
  dsimp only
  rw [World.perform_tryLock_of_live hlv]
  split_ifs with hfr
  · rw [bind_some]
    dsimp only
    have hlv' : (w.grant (u, .outbox) (.row id)).broken (u, .outbox) = false := hlv
    have hvw : (w.grant (u, .outbox) (.row id)).server.view (u, .outbox) = w.server.db := by
      change replay (S := schema H env) w.server.db (w.server.log (u, .outbox)) = _
      rw [hlog, replay_nil]
    rw [Proc.alone_perform]
    dsimp only
    rw [World.perform_query_of_live _ hlv', bind_some]
    dsimp only [exec]
    rw [hvw]
    rcases lockedRow w.server.db.outbox id with _ | p
    · rw [Option.toList_none, append_nil]
      rfl
    · rfl
  · rfl

/-- A poll without failures succeeds, and keeps what it has locked so far. -/
theorem alone_lockRows (limit : ℕ) (ids : List Uuid) (batch : List Polled)
    (hlv : w.broken (u, .outbox) = false) (hlog : w.server.log (u, .outbox) = []) :
    ∃ batch' w', (lockRows env limit ids batch).alone u Fault.none w = some (some batch', w') ∧
      batch ⊆ batch' := by
  induction ids generalizing batch w with
  | nil => exact ⟨batch, w, rfl, List.Subset.refl _⟩
  | cons id' ids ih =>
    by_cases hfull : limit ≤ batch.length
    · rw [lockRows, if_pos hfull]
      exact ⟨batch, w, rfl, List.Subset.refl _⟩
    rw [alone_lockRows_cons hlv hlog hfull]
    split_ifs
    · obtain ⟨batch', w', hrun, hsub⟩ := ih (w := look u id' w)
        (batch ++ (lockedRow w.server.db.outbox id').toList) hlv (log_look hlog)
      exact ⟨batch', w', hrun, List.Subset.trans (List.subset_append_left _ _) hsub⟩
    · exact ih batch hlv hlog

omit [DecidableEq T] in
theorem free_row_iff : w.server.Free x (.row id) ↔
    (w.server.holder (.row id) = none ∨ w.server.holder (.row id) = some x) ∧
      ∀ y ∈ w.server.sharers (.row id), y = x := Iff.rfl

omit [DecidableEq T] in
/-- Locking more rows keeps a row free for the session itself. -/
theorem free_grant_row {id' : Uuid} (hfr : w.server.Free x (.row id)) :
    (w.grant x (.row id')).server.Free x (.row id) := by
  rw [free_row_iff] at hfr ⊢
  refine ⟨?_, hfr.2⟩
  have hhol : (w.grant x (.row id')).server.holder =
      Function.update w.server.holder (.row id') (some x) := rfl
  rw [hhol]
  by_cases heq : LockKey.row id = (.row id' : LockKey H)
  · rw [heq, update_self]
    exact .inr rfl
  · rw [update_of_ne heq]
    exact hfr.1

/-- A pending row that is free is taken by the poll, unless the batch is filled with events that
have occurred no later. -/
theorem alone_lockRows_mem (hlv : w.broken (u, .outbox) = false)
    (hlog : w.server.log (u, .outbox) = []) (hfr : w.server.Free (u, .outbox) (.row id))
    (hr : w.server.db.outbox[id]? = some r) (hpnd : r.Pending) (hmem : id ∈ ids)
    (hsor : ids.Pairwise fun a b ↦ ∀ r1 r2, w.server.db.outbox[a]? = some r1 →
      w.server.db.outbox[b]? = some r2 → r1.event.occurredAt ≤ r2.event.occurredAt)
    (hbat : ∀ p ∈ batch, p.event.occurredAt ≤ r.event.occurredAt) :
    ∃ batch' w', (lockRows env limit ids batch).alone u Fault.none w = some (some batch', w') ∧
      (id ∈ batch'.map (·.id) ∨
        limit ≤ batch'.length ∧ ∀ p ∈ batch', p.event.occurredAt ≤ r.event.occurredAt) := by
  induction ids generalizing batch w with
  | nil => cases hmem
  | cons id' ids ih =>
    obtain ⟨hhead, htail⟩ := List.pairwise_cons.mp hsor
    by_cases hfull : limit ≤ batch.length
    · rw [lockRows, if_pos hfull]
      exact ⟨batch, w, rfl, .inr ⟨hfull, hbat⟩⟩
    rw [alone_lockRows_cons hlv hlog hfull]
    by_cases hid : id' = id
    · subst hid
      have hfd : lockedRow w.server.db.outbox id' = some ⟨id', r.event, r.attemptCount⟩ := by
        rw [lockedRow, hr]
        exact if_pos hpnd
      rw [if_pos hfr, hfd]
      obtain ⟨batch', w', hrun, hsub⟩ := alone_lockRows (w := look u id' w) limit ids
        (batch ++ [⟨id', r.event, r.attemptCount⟩]) hlv (log_look hlog)
      refine ⟨batch', w', hrun, .inl (mem_map.mpr ⟨⟨id', r.event, r.attemptCount⟩, ?_, rfl⟩)⟩
      exact hsub (mem_append_right _ mem_cons_self)
    have hmem' : id ∈ ids := (mem_cons.mp hmem).resolve_left (Ne.symm hid)
    split_ifs
    · refine ih hlv (log_look hlog) (free_grant_row hfr) hr hmem' htail fun q hq ↦ ?_
      rcases mem_append.mp hq with hq | hq
      · exact hbat q hq
      · obtain ⟨r', hr', -, rfl⟩ := lockedRow_eq_some (mem_toList.mp hq)
        exact hhead id hmem' r' r hr' hr
    · exact ih hlv hlog hfr hr hmem' htail hbat

private theorem mem_candidates {rows : List OutboxRow} (hr : rows[id]? = some r)
    (hpnd : r.Pending) :
    id ∈ candidates env rows := by
  refine mem_map.mpr ⟨(r, id), (env.order_perm _).mem_iff.mpr ?_, rfl⟩
  exact mem_filter.mpr ⟨List.mem_zipIdx_iff_getElem?.mpr hr, decide_eq_true hpnd⟩

private theorem candidates_sorted (rows : List OutboxRow) :
    (candidates env rows).Pairwise fun a b ↦ ∀ r1 r2, rows[a]? = some r1 → rows[b]? = some r2 →
      r1.event.occurredAt ≤ r2.event.occurredAt := by
  refine List.pairwise_map.mpr
    ((env.order_sorted _).imp_of_mem fun {a b} ha hb hle r1 r2 h1 h2 ↦ ?_)
  have hrow : ∀ {c : OutboxRow × ℕ}, c ∈ env.order (rows.zipIdx.filter fun r ↦ r.1.Pending) →
      rows[c.2]? = some c.1 := fun hc ↦ List.mem_zipIdx_iff_getElem?.mp
    (mem_of_mem_filter ((env.order_perm _).mem_iff.mp hc))
  rw [hrow ha] at h1
  rw [hrow hb] at h2
  cases h1
  cases h2
  exact hle

def beginPoll (env : Env) (limit : ℕ) : App H env T (Option (List Polled)) := do
  let _ ← Client.begin .outbox
  poll env limit

private theorem alone_beginPoll (limit : ℕ) (hr : w.server.db.outbox[id]? = some r)
    (hpnd : r.Pending) (huns : w.server.sharers (.row id) = [])
    (hfr : ∀ x, x ≠ (u, .outbox) → .row id ∉ w.held x) :
    ∃ batch w', (beginPoll env limit).alone u Fault.none w = some (some batch, w') ∧
      (id ∈ batch.map (·.id) ∨
        limit ≤ batch.length ∧ ∀ p ∈ batch, p.event.occurredAt ≤ r.event.occurredAt) := by
  have hlv : (w.close (u, .outbox)).broken (u, .outbox) = false := update_self ..
  have hlog := World.log_close_self w (u, .outbox)
  have hvw : (w.close (u, .outbox)).server.view (u, .outbox) = w.server.db := by
    rw [State.view, hlog]
    rfl
  have hrun : (beginPoll env limit).alone u Fault.none w =
      (lockRows env limit (candidates env w.server.db.outbox) []).alone u Fault.none
        ((w.close (u, .outbox)).append (u, .outbox) []) := by
    rw [beginPoll, Proc.alone_perform]
    change (poll env limit).alone u Fault.none (w.close (u, .outbox)) = _
    rw [poll, Proc.alone_perform]
    dsimp only
    rw [World.perform_query_of_live _ hlv, bind_some]
    dsimp only [exec]
    rw [hvw]
  rw [hrun]
  refine alone_lockRows_mem hlv ?_ (free_row_iff.mpr ⟨?_, ?_⟩) hr hpnd
    (mem_candidates hr hpnd) (candidates_sorted _) fun p hp ↦ absurd hp not_mem_nil
  · rw [World.log_append_self, hlog]
    rfl
  · left
    change (if w.server.holder (.row id) = some (u, .outbox) then none
      else w.server.holder (.row id)) = none
    split_ifs with hmn
    · rfl
    · rcases hhol : w.server.holder (.row id) with _ | x
      · rfl
      · have hne : x ≠ (u, .outbox) := fun heq ↦ hmn (heq ▸ hhol)
        exact absurd hhol (hfr x hne)
  · intro y hy
    have hy' : y ∈ (w.server.sharers (.row id)).filter (· ≠ (u, .outbox)) := hy
    rw [huns] at hy'
    cases hy'

end Eligible

/-! ## The law in every run

When no session is ended before the events it has locked are dispatched, the law holds in every
reached state (`deliveryLaw_of_keepsSessions`), whatever handlers, statements and commits fail, and
whichever processes are killed. -/

/-- What the outbox promises of its events. -/
structure DeliveryLaw (bus : Bus H) (s : AppConfig H env T) : Prop where
  /-- An event is published after a dispatch in which every handler returned `nil`. -/
  published : ∀ id r, s.shared.server.db.outbox[id]? = some r → r.publishedAt.isSome →
    ∃ t, Delivered bus s.shared.history t id r.event
  /-- It is dead-lettered after as many recorded failures, since its insertion or its last requeue,
  as there are attempts. -/
  deadLettered : ∀ id r, s.shared.server.db.outbox[id]? = some r → r.failedAt.isSome →
    failuresSince id s.shared.history = maxOutboxAttempts
  exclusive : ∀ r ∈ s.shared.server.db.outbox, ¬(r.publishedAt.isSome ∧ r.failedAt.isSome)
  quiet : s.shared.history.Pairwise fun later earlier ↦ ∀ id, Publishes id earlier →
    ¬Dispatches id later
  /-- One that is neither is taken by a pass that comes by, unless its batch is full of events that
  have occurred no later. -/
  eligible : ∀ id r, s.shared.server.db.outbox[id]? = some r → r.publishedAt = none →
    r.failedAt = none → ∀ u limit, (∀ x, x ≠ (u, .outbox) → .row id ∉ s.shared.held x) →
    ∃ batch w', (beginPoll env limit).alone u Fault.none s.shared = some (some batch, w') ∧
      (id ∈ batch.map (·.id) ∨
        limit ≤ batch.length ∧ ∀ p ∈ batch, p.event.occurredAt ≤ r.event.occurredAt)
  /-- Only a process that is still at work keeps others from it. -/
  waits : ∀ id x, .row id ∈ s.shared.held x → ∃ o next, s.proc x.1 = .op o next

/-- The server ends no session of a pass before the events that it has locked are dispatched. -/
def KeepsSessions (s : AppConfig H env T) :
    Act (sessions (schema H env) T (Note H) [Conn.outbox, Conn.work]) → Prop
  | .occur x => x.2 = Conn.outbox → ¬Dispatching s.shared x.1
  | .run _ _ => True
  | .kill _ => True

instance (s : AppConfig H env T) : (a : Act (sessions (schema H env) T (Note H)
    [Conn.outbox, Conn.work])) → Decidable (KeepsSessions s a)
  | .occur x => inferInstanceAs (Decidable (x.2 = .outbox → ¬Dispatching s.shared x.1))
  | .run _ _ => inferInstanceAs (Decidable True)
  | .kill _ => inferInstanceAs (Decidable True)

private theorem suits_keepsSessions (bus : Bus H) :
    (contract bus : Contract (sessions (schema H env) T (Note H) [Conn.outbox, Conn.work])).Suits
      KeepsSessions where
  cond _ _ := trivial
  event hC := hC
  occur hc hs := keeps_lose hs hc
  kill hs := keeps_kill hs

private theorem sound_init (bus : Bus H) (work : H.Db) (jobRuns : List (Option ℤ)) (stamp : ℕ) :
    Sound bus (World.init ⟨[], jobRuns, work⟩ stamp : AppWorld H env T) where
  table := .nil bus
  log x := .nil ..
  keys := nofun
  unshared _ := rfl
  dispatching t id hd := by
    obtain ⟨e, db, hbeg⟩ := hd.begun
    cases hbeg

/-- The contract holds in every reached state, and a process that has ended has released its
rows. -/
theorem sound_of_reach {work : H.Db} {jobRuns : List (Option ℤ)} {stamp : ℕ} {jobs : T → Job H}
    {s : AppConfig H env T} (h : Reach KeepsSessions (start env bus work jobRuns stamp jobs) s) :
    Sound bus s.shared ∧ ∀ t, (contract bus).Safe t (s.proc t) s.shared fun _ w ↦ Released t w := by
  refine Contract.sound (suits_keepsSessions bus) (sound_init bus work jobRuns stamp)
    (fun t ↦ safe_proc (jobs t) rfl nofun) (fun t w hs ↦ ?_) h
  -- a killed process leaves closed sessions
  refine safe_pure fun w' hr _ ↦ Released.rely (fun id hhd ↦ ?_) hr
  have hhd' : .row id ∈ (w.close (t, .outbox)).held (t, .outbox) :=
    World.held_close_subset _ (t, Conn.work) _ hhd
  rw [World.held_close_self] at hhd'
  exact hhd'

/-- When no session is ended before its events are dispatched, the law holds in every reached
state. -/
theorem deliveryLaw_of_keepsSessions (bus : Bus H) (work : H.Db) (jobRuns : List (Option ℤ))
    (stamp : ℕ) (jobs : T → Job H) {s : AppConfig H env T}
    (h : Reach KeepsSessions (start env bus work jobRuns stamp jobs) s) : DeliveryLaw bus s := by
  obtain ⟨hs, hsafe⟩ := sound_of_reach h
  refine {
    published := fun id r hr hpub ↦ ((hs.table.row id r hr).published hpub).2
    deadLettered := fun id r hr hfai ↦ ?_
    exclusive := fun r hmem ↦ ?_
    quiet := hs.table.quiet
    eligible := fun id r hr hpub hfai u limit hfr ↦
      alone_beginPoll limit hr ⟨hpub, hfai⟩ (hs.unshared id) hfr
    waits := fun id x hhd ↦ ?_ }
  · have hrow := hs.table.row id r hr
    exact hrow.attempts.symm.trans (hrow.parked hfai)
  · rintro ⟨hpub, hfai⟩
    obtain ⟨id, hr⟩ := List.mem_iff_getElem?.mp hmem
    rw [((hs.table.row id r hr).published hpub).1] at hfai
    cases hfai
  · rcases x with ⟨t, _ | _⟩
    · rcases hproc : s.proc t with ⟨⟨⟩⟩ | ⟨o, next⟩
      · have hrel := hsafe t
        rw [hproc] at hrel
        exact absurd hhd (hrel s.shared (Rely.refl t _) hs id)
      · exact ⟨o, next, rfl⟩
    · exact absurd hhd (hs.keys t id)

/-- What publishers keep while they are at work. -/
structure DispatchLaw (s : AppConfig H env T) : Prop where
  /-- One process at a time dispatches an event, and only a pending one. -/
  single : ∀ t u id, InDispatch s.shared.history t id → InDispatch s.shared.history u id →
    t = u ∧ ∃ r, s.shared.server.db.outbox[id]? = some r ∧ r.Pending
  /-- Every recorded failure is counted, and the last one of the budget parks the event. -/
  attempts : ∀ id r, s.shared.server.db.outbox[id]? = some r →
    r.attemptCount = failuresSince id s.shared.history ∧ r.attemptCount ≤ maxOutboxAttempts ∧
      (r.failedAt.isSome ↔ r.attemptCount = maxOutboxAttempts)

theorem dispatchLaw_of_keepsSessions (bus : Bus H) (work : H.Db) (jobRuns : List (Option ℤ))
    (stamp : ℕ) (jobs : T → Job H) {s : AppConfig H env T}
    (h : Reach KeepsSessions (start env bus work jobRuns stamp jobs) s) : DispatchLaw s := by
  obtain ⟨hs, -⟩ := sound_of_reach h
  refine ⟨fun t u id ht hu ↦ ?_, fun id r hr ↦ ?_⟩
  · obtain ⟨-, hhd, hr⟩ := hs.dispatching t id ht
    exact ⟨congrArg Prod.fst (State.eq_of_held rfl hhd (hs.dispatching u id hu).2.1), hr⟩
  · have hrow := hs.table.row id r hr
    refine ⟨hrow.attempts, ?_⟩
    rcases hfai : r.failedAt with _ | z
    · have hlt := hrow.budget hfai
      simp [hlt.le, hlt.ne]
    · simp [hrow.parked (by rw [hfai]; rfl)]

/-- Handlers without tables of their own. -/
@[reducible] def noTables : Schema where
  Db := Unit
  Write := Empty
  Query := Empty
  Reply _ := Unit
  Key := Empty
  Result := Unit
  Error := Empty
  apply db _ := db
  exec q _ _ _ := q.elim

/-- The older event first. -/
def byTime : Env where
  order rows := rows.insertionSort fun r r' ↦ r.1.event.occurredAt ≤ r'.1.event.occurredAt
  order_perm rows := List.perm_insertionSort _ rows
  order_sorted rows := by
    have : Std.Total fun r r' : OutboxRow × ℕ ↦ r.1.event.occurredAt ≤ r'.1.event.occurredAt :=
      ⟨fun _ _ ↦ le_total ..⟩
    have : IsTrans (OutboxRow × ℕ) fun r r' ↦ r.1.event.occurredAt ≤ r'.1.event.occurredAt :=
      ⟨fun _ _ _ ↦ le_trans⟩
    exact List.pairwise_insertionSort _ rows

/-- One handler, which always succeeds. -/
def quietBus : Bus noTables where
  handlers type := if type = "*" then [fun _ ↦ .ret none] else []

/-- The processes of a small run: one writes events, two publishers make a pass each. -/
inductive Worker where
  | emitter | first | second
  deriving DecidableEq

def smallEvent (aggregateId : String) (occurredAt : ℤ) : NewEvent :=
  ⟨none, "ShiftApproved", 1, "shift", aggregateId, none, "", none, some occurredAt, "", ""⟩

def smallJobs : Worker → Job noTables
  | .emitter => .business 0 (.commit ()) fun _ ↦ [smallEvent "morning" 1, smallEvent "evening" 2]
  | .first => .pass 100 3 fun _ ↦ 3
  | .second => .pass 100 4 fun _ ↦ 4

abbrev smallStart : AppConfig noTables byTime Worker := start byTime quietBus () [] 0 smallJobs

/-- Let a process take steps in a row, without failures. -/
def steps (t : Worker) (n : ℕ) :
    List (Act (sessions (schema noTables byTime) Worker (Note noTables)
      [Conn.outbox, Conn.work])) :=
  List.replicate n (.run t Fault.none)

/-- A pass loses its session after it has dispatched the first of two events; another pass
dispatches both and marks them published; then the first pass dispatches the second event again. -/
theorem not_deliveryLaw_of_lost_session :
    ∃ s : AppConfig noTables byTime Worker, Reach (fun _ _ ↦ True) smallStart s ∧
      ¬DeliveryLaw quietBus s := by
  refine exists_and_imp (fun s ↦ ¬s.shared.history.Pairwise fun later earlier ↦ ∀ id ∈ List.range 2,
    Publishes id earlier →
      ¬Dispatches id later)
    (Reach.exists_of_runs (steps .emitter 4 ++ steps .first 8 ++ [.occur (.first, .outbox)] ++
    steps .second 12 ++ steps .first 1) (by decide +kernel)) ?_
  rintro _ _ hbad
  exact fun hlaw ↦ hbad (hlaw.quiet.imp fun hqui id _ ↦ hqui id)

/-- A run in which both events are published. -/
theorem deliveryLaw_of_pass :
    ∃ s : AppConfig noTables byTime Worker, Reach KeepsSessions smallStart s ∧
      DeliveryLaw quietBus s ∧
      s.shared.server.db.outbox.map (·.publishedAt) = [some 3, some 3] := by
  refine exists_and_imp (fun s ↦ s.shared.server.db.outbox.map (·.publishedAt) = [some 3, some 3])
    (Reach.exists_of_runs (steps .emitter 4 ++ steps .first 12) (by decide +kernel)) ?_
  rintro _ hrch hpub
  exact ⟨deliveryLaw_of_keepsSessions quietBus () [] 0 smallJobs hrch, hpub⟩

theorem dispatchLaw_of_pass :
    ∃ s : AppConfig noTables byTime Worker, Reach KeepsSessions smallStart s ∧
      DispatchLaw s ∧ s.shared.server.db.outbox.map (·.publishedAt) = [some 3, some 3] := by
  refine exists_and_imp (fun s ↦ s.shared.server.db.outbox.map (·.publishedAt) = [some 3, some 3])
    (Reach.exists_of_runs (steps .emitter 4 ++ steps .first 12) (by decide +kernel)) ?_
  rintro _ hrch hpub
  exact ⟨dispatchLaw_of_keepsSessions quietBus () [] 0 smallJobs hrch, hpub⟩

end FuelGrid.Events
