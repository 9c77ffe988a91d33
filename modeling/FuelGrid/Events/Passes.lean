import FuelGrid.Events.Contract

/-!
# Passes, sweeps and handlers keep the contract

Each job of the application is executed symbolically against the contract of the outbox.
-/

namespace FuelGrid.Events

open Sql Concurrent

variable {H : Schema} {env : Env} {T α : Type} [DecidableEq T] {bus : Bus H} {t : T}
  {w w' : AppWorld H env T} {Q : α → AppWorld H env T → Prop} {h h' : List (AppEntry H env T)}
  {k : Bool → App H env T α} {id : Uuid} {log ws : List (Write H)} {db : EventsDb H}
  {now : Uuid → ℤ} {cutoff startedAt : ℤ} {e : Event} {ids : List Uuid} {x : T × Conn} {q : Query H}
  {limit : ℕ}

/-! ## Rules for the outbox session -/

/-- Process `t` has locked no row. -/
def Released (t : T) (w : AppWorld H env T) : Prop := ∀ id, .row id ∉ w.held (t, .outbox)

theorem Released.rely (hrel : Released t w) (hr : Rely t w w') : Released t w' :=
  fun id hhd ↦ hrel id (hr.released hhd)

private theorem released_close (w : AppWorld H env T) : Released t (w.close (t, .outbox)) := by
  intro id hhd
  rw [World.held_close_self] at hhd
  exact hhd

theorem Idle.of_mine (hidle : Idle h t) (heq : mine t h' = mine t h) : Idle h' t :=
  fun id hd ↦ hidle id (hd.of_mine heq)

private theorem idle_of_mine_eq_nil (hnil : mine t h = []) : Idle h t := by
  rintro id ⟨⟨e, db, hbeg⟩, -, -⟩
  rw [← mem_mine_note, hnil] at hbeg
  cases hbeg

private theorem not_returned_of_mine_eq_nil (hnil : mine t h = []) (id : Uuid) :
    ¬Returned h t id := by
  rw [← returned_mine, hnil]
  rintro ⟨n, hn, -⟩
  cases hn

/-- What an operation on the outbox session of `t` does is what the other processes rely on. -/
theorem keeps_of_session
    (h : (contract bus).Keeps (fun u ↦ (u, Conn.outbox) ≠ (t, Conn.outbox)) w w') :
    (contract bus).Keeps (· ≠ t) w w' :=
  h.imp fun _ hu heq ↦ hu (congrArg Prod.fst heq)

theorem safe_begin (hidle : Idle w.history t) (hrel : Released t w)
    (hfl : ∀ w', mine t w'.history = mine t w.history → Released t w' →
      (contract bus).Safe t (k false) w' Q)
    (hok : ∀ w', mine t w'.history = mine t w.history → w'.broken (t, .outbox) = false →
      w'.server.log (t, .outbox) = [] → Released t w' → (contract bus).Safe t (k true) w' Q) :
    (contract bus).Safe t (Client.begin .outbox >>= k) w Q := by
  refine safe_perform fun w1 hr hs c _ ok w2 hop ↦ ?_
  rcases World.perform_begin hop with ⟨rfl, rfl⟩ | ⟨rfl, rfl⟩
  · exact ⟨⟨hs, fun u _ ↦ Rely.refl u _⟩, hfl _ hr.mine (hrel.rely hr)⟩
  · exact ⟨keeps_of_session (keeps_close hs fun _ ↦ hidle.of_mine hr.mine),
      hok _ hr.mine (update_self ..) (World.log_close_self _ _) (released_close _)⟩

theorem safe_rollback {k : Unit → App H env T α} (hidle : Idle w.history t)
    (hk : ∀ w', mine t w'.history = mine t w.history → Released t w' →
      (contract bus).Safe t (k ()) w' Q) :
    (contract bus).Safe t (Client.rollback .outbox >>= k) w Q := by
  refine safe_perform fun w1 hr hs c _ _ w2 hop ↦ ?_
  obtain rfl := World.perform_rollback (f := c) hop
  exact ⟨keeps_of_session (keeps_close hs fun _ ↦ hidle.of_mine hr.mine),
    hk _ hr.mine (released_close _)⟩

theorem safe_commit (hidle : Idle w.history t)
    (hk : ∀ w' ok, mine t w'.history = mine t w.history → Released t w' →
      (contract bus).Safe t (k ok) w' Q) :
    (contract bus).Safe t (Client.commit .outbox >>= k) w Q := by
  refine safe_perform fun w1 hr hs c _ ok w2 hop ↦ ?_
  have hidl1 : Idle w1.history t := hidle.of_mine hr.mine
  rcases World.perform_commit hop with ⟨-, rfl⟩ | ⟨-, rfl⟩
  · exact ⟨keeps_of_session (keeps_close hs fun _ ↦ hidl1), hk _ _ hr.mine (released_close _)⟩
  · exact ⟨keeps_of_session (keeps_commit hs fun _ ↦ hidl1),
      hk _ _ ((mine_wrote t _ _ _).trans hr.mine) (released_close _)⟩

theorem safe_released (a : α) (hrel : Released t w) :
    (contract bus).Safe t (pure a : App H env T α) w fun _ ↦ Released t :=
  safe_pure fun _ hr _ ↦ hrel.rely hr

theorem safe_rollback_released (hidle : Idle w.history t) :
    (contract bus).Safe t (Client.rollback .outbox : App H env T Unit) w fun _ ↦ Released t :=
  safe_rollback (k := pure) hidle fun _ _ hrel ↦ safe_released () hrel

/-- To go past a statement, show that what it writes can be committed. -/
theorem safe_ask {k : Option (Reply H q) → App H env T α} (hidle : Idle w.history t)
    (hfl : ∀ w', mine t w'.history = mine t w.history → (contract bus).Safe t (k none) w' Q)
    (hok : ∀ w' ws a, Rely t w w' → w'.broken (t, .outbox) = false →
      exec env q w'.server.db (w'.server.view (t, .outbox)) w'.server.stamp = (ws, a) →
      LogSound bus w' (t, .outbox) (w'.server.log (t, .outbox)) →
      LogSound bus w' (t, .outbox) (w'.server.log (t, .outbox) ++ ws) ∧
        (contract bus).Safe t (k (some a)) (w'.append (t, .outbox) ws) Q) :
    (contract bus).Safe t (ask env q >>= k) w Q := by
  refine safe_perform fun w1 hr hs c _ r w2 hop ↦ ?_
  rcases World.perform_query hop with ⟨rfl, rfl⟩ | ⟨-, hlv, ws, a, hexec, rfl, rfl⟩
  · exact ⟨keeps_of_session (keeps_fail hs fun _ ↦ hidle.of_mine hr.mine), hfl _ hr.mine⟩
  · obtain ⟨hlog, hnx⟩ := hok w1 ws a hr hlv hexec (hs.log _)
    exact ⟨keeps_of_session (keeps_append hs hlog), hnx⟩

theorem safe_tryLock {k : Option Bool → App H env T α} (hidle : Idle w.history t)
    (hfl : ∀ w', mine t w'.history = mine t w.history → (contract bus).Safe t (k none) w' Q)
    (hskip : ∀ w', Rely t w w' → (contract bus).Safe t (k (some false)) w' Q)
    (hgot : ∀ w', Rely t w w' → w'.broken (t, .outbox) = false →
      (contract bus).Safe t (k (some true)) (w'.grant (t, .outbox) (.row id)) Q) :
    (contract bus).Safe t (Client.tryLock .outbox (LockKey.row id) >>= k) w Q := by
  refine safe_perform fun w1 hr hs c _ r w2 hop ↦ ?_
  rcases World.perform_tryLock hop with ⟨rfl, rfl⟩ | ⟨hlv, ⟨rfl, rfl⟩ | ⟨hfr, rfl, rfl⟩⟩
  · exact ⟨keeps_of_session (keeps_fail hs fun _ ↦ hidle.of_mine hr.mine), hfl _ hr.mine⟩
  · exact ⟨⟨hs, fun u _ ↦ Rely.refl u _⟩, hskip _ hr⟩
  · exact ⟨keeps_of_session (keeps_grant hs hfr nofun),
      hgot _ hr hlv⟩

theorem safe_lock (hidle : Idle w.history t)
    (hfl : ∀ w', mine t w'.history = mine t w.history → (contract bus).Safe t (k false) w' Q)
    (hgot : ∀ w', Rely t w w' → w'.broken (t, .outbox) = false →
      (contract bus).Safe t (k true) (w'.grant (t, .outbox) (.row id)) Q) :
    (contract bus).Safe t (Client.lock .outbox (LockKey.row id) >>= k) w Q := by
  refine safe_perform fun w1 hr hs c _ r w2 hop ↦ ?_
  rcases World.perform_lock hop with ⟨rfl, rfl⟩ | ⟨hlv, hfr, rfl, rfl⟩
  · exact ⟨keeps_of_session (keeps_fail hs fun _ ↦ hidle.of_mine hr.mine), hfl _ hr.mine⟩
  · exact ⟨keeps_of_session (keeps_grant hs hfr nofun),
      hgot _ hr hlv⟩

/-! ## Handlers and business transactions

A handler and a business transaction work on a connection of their own and touch no row of the
outbox other than by inserting events, so for the pass that waits for a handler it is as if another
process had moved (`keeps_of_work`). -/

/-- The transaction stays away from the rows of the outbox, apart from inserting events. -/
def Business : Prog (schema H env) → Prop
  | .commit _ => True
  | .rollback _ => True
  | .lock k next => (∀ id, k ≠ .row id) ∧ Business next
  | .query q next => ((∃ e, q = .insertEvent e) ∨ ∃ q', q = .work q') ∧ ∀ r, Business (next r)

private theorem business_lift (p : Prog H) : Business (p.lift (workPart H env)) := by
  induction p with
  | commit a => trivial
  | rollback e => trivial
  | lock k next ih => exact ⟨nofun, ih⟩
  | query q next ih => exact ⟨.inr ⟨q, rfl⟩, fun r ↦ ih r⟩

private theorem business_writeAll (now : ℤ) (a : H.Result) (es : List NewEvent) :
    Business (writeAll env now (.commit a) es) := by
  induction es with
  | nil => trivial
  | cons e es ih =>
    rw [writeAll, writeOutbox]
    split_ifs
    · trivial
    · trivial
    · trivial
    · exact ⟨.inl ⟨_, rfl⟩, fun _ ↦ ih⟩

theorem business_businessTxn (now : ℤ) (p : Prog H) (events : H.Result → List NewEvent) :
    Business (businessTxn env now p events) := by
  unfold businessTxn
  induction p with
  | commit a => exact business_writeAll now a (events a)
  | rollback e => trivial
  | lock k next ih => exact ⟨nofun, ih⟩
  | query q next ih => exact ⟨.inr ⟨q, rfl⟩, fun r ↦ ih r⟩

/-- What a process does on its other connection is for its outbox session as if another process had
done it. -/
theorem keeps_of_work (h : (contract bus).Keeps (fun u ↦ (u, Conn.outbox) ≠ (t, Conn.work)) w w') :
    (contract bus).Keeps (· ≠ t) w w' ∧ Rely t w w' :=
  have hne : ∀ u : T, (u, Conn.outbox) ≠ (t, Conn.work) := nofun
  ⟨h.imp fun u _ ↦ hne u, h.rely t (hne t)⟩

omit [DecidableEq T] in
theorem LogSound.business {a : Reply H q} {db' : EventsDb H} {n : ℕ} (hlog : LogSound bus w x log)
    (hq : (∃ e, q = .insertEvent e) ∨ ∃ q', q = .work q') (hexec : exec env q db db' n = (ws, a)) :
    LogSound bus w x (log ++ ws) := by
  have hws : ∀ v ∈ ws, (∃ e, v = .insertEvent e) ∨ ∃ v', v = .work v' := by
    rcases hq with ⟨e, rfl⟩ | ⟨q', rfl⟩
    · cases hexec
      exact fun v hv ↦ .inl ⟨e, mem_singleton.mp hv⟩
    · cases hexec
      intro v hv
      obtain ⟨v', -, rfl⟩ := mem_map.mp hv
      exact .inr ⟨v', rfl⟩
  have htar : ws.filterMap Write.target = [] := filterMap_eq_nil_iff.mpr fun v hv ↦ by
    rcases hws v hv with ⟨e, rfl⟩ | ⟨v', rfl⟩ <;> rfl
  refine ⟨?_, fun v hv id hid ↦ ?_, fun v hv ↦ ?_⟩
  · rw [filterMap_append, htar, List.append_nil]
    exact hlog.nodup
  · rcases mem_append.mp hv with hv | hv
    · exact hlog.locked v hv id hid
    · rcases hws v hv with ⟨e, rfl⟩ | ⟨v', rfl⟩ <;> cases hid
  · rcases mem_append.mp hv with hv | hv
    · exact hlog.fits v hv
    · rcases hws v hv with ⟨e, rfl⟩ | ⟨v', rfl⟩ <;> trivial

variable {w0 : AppWorld H env T} {results : List (Option (Failure H))}

/-- To go past an operation on the other connection, show that it disturbs no outbox session. -/
theorem safe_work {o : (sessions (schema H env) T (Note H) [.outbox, .work]).Op}
    {k : _ → App H env T α} (hr : Rely t w0 w) (h : ∀ w1 w2 c r, Sound bus w1 →
      (sessions (schema H env) T (Note H) [.outbox, .work]).perform t o c w1 = some (r, w2) →
      (contract bus).Keeps (fun u ↦ (u, Conn.outbox) ≠ (t, Conn.work)) w1 w2 ∧
        (Rely t w0 w2 → (contract bus).Safe t (k r) w2 Q)) :
    (contract bus).Safe t (Proc.perform o >>= k) w Q := by
  refine safe_perform fun w1 hr1 hs c _ r w2 hop ↦ ?_
  obtain ⟨hkp, hnx⟩ := h w1 w2 c r hs hop
  obtain ⟨hkp', hr2⟩ := keeps_of_work hkp
  exact ⟨hkp', hnx ((hr.trans hr1).trans hr2)⟩

theorem safe_pure_rely (a : α) (hr : Rely t w0 w) :
    (contract bus).Safe t (pure a : App H env T α) w fun _ w' ↦ Rely t w0 w' :=
  safe_pure fun _ hr' _ ↦ hr.trans hr'

theorem safe_transact {p : Prog (schema H env)} (hp : Business p) (hr : Rely t w0 w) :
    (contract bus).Safe t (Client.transact .work p) w fun _ w' ↦ Rely t w0 w' := by
  have hwork : Conn.work ≠ Conn.outbox := by decide
  -- the failing cases roll back and end
  have hrol : ∀ {w1} (out : Outcome (EventsError H) H.Result), Rely t w0 w1 →
      (contract bus).Safe t (do Client.rollback .work; pure out : App H env T _) w1
        fun _ w' ↦ Rely t w0 w' := by
    refine fun out hr1 ↦ safe_work hr1 fun w2 w3 c _ hs hop ↦ ?_
    obtain rfl := World.perform_rollback (f := c) hop
    exact ⟨keeps_close hs fun h ↦ absurd h hwork, safe_pure_rely out⟩
  induction p generalizing w with
  | commit a =>
    refine safe_work hr fun w2 w3 c ok hs hop ↦ ?_
    rcases World.perform_commit hop with ⟨-, rfl⟩ | ⟨-, rfl⟩
    · exact ⟨keeps_close hs fun h ↦ absurd h hwork, safe_pure_rely _⟩
    · exact ⟨keeps_commit hs fun h ↦ absurd h hwork, safe_pure_rely _⟩
  | rollback e => exact hrol _ hr
  | lock k next ih =>
    refine safe_work hr fun w2 w3 c ok hs hop ↦ ?_
    rcases World.perform_lock hop with ⟨rfl, rfl⟩ | ⟨-, hfr, rfl, rfl⟩
    · exact ⟨keeps_fail hs fun h ↦ absurd h hwork, hrol _⟩
    · exact ⟨keeps_grant hs hfr fun _ ↦ hp.1, ih hp.2⟩
  | query q next ih =>
    rw [Client.transact]
    refine safe_work hr fun w2 w3 c r hs hop ↦ ?_
    rcases World.perform_query hop with ⟨rfl, rfl⟩ | ⟨-, -, ws, a, hexec, rfl, rfl⟩
    · exact ⟨keeps_fail hs fun h ↦ absurd h hwork, hrol _⟩
    · exact ⟨keeps_append hs ((hs.log _).business hp.1 hexec), ih a (hp.2 a)⟩

theorem safe_runTxn {p : Prog (schema H env)} (hp : Business p) (w : AppWorld H env T) :
    (contract bus).Safe t (Client.runTxn .work p) w fun _ w' ↦ Rely t w w' := by
  refine safe_perform fun w1 hr1 hs c _ ok w2 hop ↦ ?_
  rcases World.perform_begin hop with ⟨rfl, rfl⟩ | ⟨rfl, rfl⟩
  · exact ⟨⟨hs, fun u _ ↦ Rely.refl u _⟩, safe_pure_rely _ hr1⟩
  · obtain ⟨hkp, hr2⟩ := keeps_of_work (keeps_close hs nofun)
    exact ⟨hkp, safe_transact hp (hr1.trans hr2)⟩

theorem safe_body (b : Body H) (w : AppWorld H env T) :
    (contract bus).Safe t (b.run env) w fun _ w' ↦ Rely t w w' := by
  induction b generalizing w with
  | ret err => exact safe_pure fun w' hr _ ↦ hr
  | txn p next ih =>
    refine safe_bind ((safe_runTxn (business_lift p) w).imp fun out w1 hr1 ↦ ?_)
    exact (ih out w1).imp fun _ w' hr' ↦ hr1.trans hr'

theorem safe_callHandlers {hs : List (Handler H)} (w : AppWorld H env T) :
    (contract bus).Safe t (callHandlers env e hs results) w fun out w' ↦
      Rely t w w' ∧ out.length = results.length + hs.length := by
  induction hs generalizing results w with
  | nil => exact safe_pure fun w' hr _ ↦ ⟨hr, rfl⟩
  | cons hand hs ih =>
    refine safe_bind ((safe_body (hand e) w).imp fun err w1 hr1 ↦ ?_)
    refine (ih w1).imp fun out w' hout ↦ ⟨hr1.trans hout.1, ?_⟩
    rw [hout.2, List.length_append, List.length_singleton, List.length_cons]
    omega

/-! ## Polling

A pass has polled rows, holds their locks and has something left to dispatch for as long as its
session must live (`Underway`). -/

/-- The row of a polled event is locked by the session of process `t`, and as it was polled. -/
def Holds (t : T) (w : AppWorld H env T) (p : Polled) : Prop :=
  .row p.id ∈ w.held (t, .outbox) ∧ ∃ r, w.server.db.outbox[p.id]? = some r ∧ r.Pending ∧
    r.event = p.event ∧ r.attemptCount = p.attempts

theorem Holds.rely {p : Polled} (hp : Holds t w p) (hrely : Rely t w w')
    (hlv : w'.broken (t, .outbox) = false) : Holds t w' p := by
  obtain ⟨hhd, r, hr, hrow⟩ := hp
  exact ⟨hrely.held hlv hhd, r, hrely.rows hlv p.id r hhd hr, hrow⟩

/-- A pass between its poll and its first update. The events of `rest` are still to be dispatched,
and as long as there are any the session lives. -/
structure Underway (bus : Bus H) (t : T) (rest : List Polled) (dispatched : List Uuid)
    (failures : List OutboxFailure) (w : AppWorld H env T) : Prop where
  returned : ∀ id, Returned w.history t id → id ∈ dispatched ++ failures.map (·.id)
  nodup : (dispatched ++ failures.map (·.id) ++ rest.map (·.id)).Nodup
  live : rest ≠ [] → w.broken (t, .outbox) = false
  log : w.broken (t, .outbox) = false → w.server.log (t, .outbox) = []
  rest : w.broken (t, .outbox) = false → ∀ p ∈ rest, Holds t w p
  dispatched : w.broken (t, .outbox) = false → ∀ id ∈ dispatched, ∃ p, p.id = id ∧ Holds t w p ∧
    Delivered bus w.history t id p.event
  failures : w.broken (t, .outbox) = false → ∀ f ∈ failures, ∃ p, Holds t w p ∧
    f = classifyFailure p.id p.attempts

namespace Underway

variable {rest : List Polled} {dispatched : List Uuid} {failures : List OutboxFailure}

section Rest

variable (hu : Underway bus t rest dispatched failures w)

include hu

/-- The rows of a pass that has something to dispatch wait for it. -/
theorem dispatching (hne : rest ≠ []) : Dispatching w t := by
  obtain ⟨p, hp⟩ := List.exists_mem_of_ne_nil rest hne
  obtain ⟨hhd, r, hr, hpnd, -⟩ := hu.rest (hu.live hne) p hp
  refine dispatching_of hhd hr hpnd fun hret ↦ ?_
  exact List.disjoint_of_nodup_append hu.nodup (hu.returned _ hret) (mem_map_of_mem hp)

theorem rely (hr : Rely t w w') : Underway bus t rest dispatched failures w' where
  returned id hret := hu.returned id ((returned_iff hr.mine).mp hret)
  nodup := hu.nodup
  live hne := by
    rcases hb : w'.broken (t, .outbox) with _ | _
    · rfl
    · exact absurd (hu.dispatching hne) (hr.lost (hu.live hne) hb)
  log hb := (hr.log hb).trans (hu.log (hr.live hb))
  rest hb p hp := (hu.rest (hr.live hb) p hp).rely hr hb
  dispatched hb id hid := by
    obtain ⟨p, hp, hhol, hd⟩ := hu.dispatched (hr.live hb) id hid
    exact ⟨p, hp, hhol.rely hr hb, hd.mono hr.history.subset⟩
  failures hb f hf := by
    obtain ⟨p, hhol, hcla⟩ := hu.failures (hr.live hb) f hf
    exact ⟨p, hhol.rely hr hb, hcla⟩

theorem grant (k : LockKey H) :
    Underway bus t rest dispatched failures (w.grant (t, .outbox) k) := by
  have hhol : ∀ {p}, Holds t w p → Holds t (w.grant (t, .outbox) k) p := fun hp ↦
    ⟨World.held_grant_self w _ k ▸ mem_insert_of_mem _ hp.1, hp.2⟩
  refine ⟨hu.returned, hu.nodup, hu.live, hu.log, fun hb p hp ↦ hhol (hu.rest hb p hp),
    fun hb id hid ↦ ?_, fun hb f hf ↦ ?_⟩
  · obtain ⟨p, hp, hrow, hd⟩ := hu.dispatched hb id hid
    exact ⟨p, hp, hhol hrow, hd⟩
  · obtain ⟨p, hrow, hcla⟩ := hu.failures hb f hf
    exact ⟨p, hhol hrow, hcla⟩

theorem append_nil : Underway bus t rest dispatched failures (w.append (t, .outbox) []) :=
  { hu with
    log := fun hb ↦ by
      rw [World.log_append_self, List.append_nil]
      exact hu.log hb }

end Rest

theorem snoc {p : Polled} (hu : Underway bus t rest [] [] w) (hnew : p.id ∉ rest.map (·.id))
    (hlv : w.broken (t, .outbox) = false) (hp : Holds t w p) :
    Underway bus t (rest ++ [p]) [] [] w where
  returned := hu.returned
  nodup := by
    change ((rest ++ [p]).map (·.id)).Nodup
    rw [map_append, map_singleton]
    exact nodup_append.mpr ⟨hu.nodup, nodup_singleton _, fun id hid id' hid' heq ↦ by
      rw [mem_singleton.mp hid'] at heq
      exact hnew (heq ▸ hid)⟩
  live _ := hlv
  log := hu.log
  rest hb q hq := by
    rcases mem_snoc.mp hq with hq | rfl
    · exact hu.rest hb q hq
    · exact hp
  dispatched := nofun
  failures := nofun

end Underway

/-- What a poll leaves: nothing is dispatched yet, and if it has succeeded its rows are locked. -/
def Polls (bus : Bus H) (t : T) (out : Option (List Polled)) (w : AppWorld H env T) : Prop :=
  Idle w.history t ∧ ∀ batch, out = some batch → Underway bus t batch [] [] w

theorem lockedRow_eq_some {rows : List OutboxRow} {p : Polled} (h : lockedRow rows id = some p) :
    ∃ r, rows[id]? = some r ∧ r.Pending ∧ p = ⟨id, r.event, r.attemptCount⟩ := by
  unfold lockedRow at h
  split at h
  · cases h
  next r hr =>
    split at h
    next hpnd =>
      cases h
      exact ⟨r, hr, hpnd, rfl⟩
    · cases h

theorem safe_lockRows {batch : List Polled} (hidle : Idle w.history t)
    (hu : Underway bus t batch [] [] w) (hnd : (batch.map (·.id) ++ ids).Nodup) :
    (contract bus).Safe t (lockRows env limit ids batch) w (Polls bus t) := by
  have hdone : ∀ {batch w}, Idle w.history t → Underway bus t batch [] [] w →
      (contract bus).Safe t (pure (some batch) : App H env T _) w (Polls bus t) :=
    fun hidle hu ↦ safe_pure fun w' hrely _ ↦
      ⟨hidle.of_mine hrely.mine, fun b hb ↦ by cases hb; exact hu.rely hrely⟩
  have hfai : ∀ {w : AppWorld H env T}, Idle w.history t →
      (contract bus).Safe t (pure none : App H env T _) w (Polls bus t) :=
    fun hidle ↦ safe_pure fun w' hrely _ ↦
      ⟨hidle.of_mine hrely.mine, nofun⟩
  induction ids generalizing batch w with
  | nil => exact hdone hidle hu
  | cons id ids ih =>
    have hskip : (batch.map (·.id) ++ ids).Nodup :=
      hnd.sublist ((List.sublist_cons_self id ids).append_left _)
    rw [lockRows]
    split
    · exact hdone hidle hu
    refine safe_tryLock hidle (fun w1 hmine ↦ hfai (hidle.of_mine hmine)) (fun w1 hrely ↦ ?_)
      fun w1 hrely _ ↦ ?_
    · exact ih (hidle.of_mine hrely.mine) (hu.rely hrely) hskip
    -- the row is locked; the second look decides whether it belongs to the batch
    have hidl1 : Idle w1.history t := hidle.of_mine hrely.mine
    have hu1 := (hu.rely hrely).grant (.row id)
    refine safe_ask hidl1 (fun w2 hmine ↦ hfai (hidl1.of_mine hmine))
      fun w2 ws a hr2 hlv hexec hlog ↦ ?_
    obtain ⟨rfl, hrep⟩ : [] = ws ∧ lockedRow (w2.server.view (t, .outbox)).outbox id = a := by
      cases hexec
      exact ⟨rfl, rfl⟩
    have hu2 := hu1.rely hr2
    have hidl2 : Idle (w2.append (t, .outbox) []).history t := hidl1.of_mine hr2.mine
    refine ⟨by rwa [List.append_nil], ?_⟩
    rcases a with _ | p
    · exact ih hidl2 hu2.append_nil hskip
    · have hvw : w2.server.view (t, .outbox) = w2.server.db := by
        rw [State.view, hu2.log hlv]
        rfl
      rw [hvw] at hrep
      obtain ⟨r, hr, hpnd, rfl⟩ := lockedRow_eq_some hrep
      have hhd : .row id ∈ w2.held (t, .outbox) :=
        hr2.held hlv (World.held_grant_self w1 _ _ ▸ mem_insert ..)
      have hnew : id ∉ batch.map (·.id) := fun hmem ↦
        List.disjoint_of_nodup_append hnd hmem mem_cons_self
      refine ih hidl2 (hu2.snoc hnew hlv ⟨hhd, r, hr, hpnd, rfl, rfl⟩).append_nil ?_
      rwa [map_append, map_singleton, append_assoc]

private theorem nodup_map_zipIdx_filter (rows : List OutboxRow) (P : OutboxRow × ℕ → Bool) :
    ((rows.zipIdx.filter P).map (·.2)).Nodup := by
  refine List.Nodup.sublist (filter_sublist.map _) ?_
  rw [List.zipIdx_map_snd]
  exact List.nodup_range' ..

private theorem nodup_candidates (env : Env) (rows : List OutboxRow) :
    (candidates env rows).Nodup :=
  ((env.order_perm _).map _).nodup_iff.mpr (nodup_map_zipIdx_filter ..)

/-- A session right after `BEGIN`, of a process that has dispatched nothing. -/
structure Begun (t : T) (w : AppWorld H env T) : Prop where
  mine : mine t w.history = []
  log : w.broken (t, .outbox) = false → w.server.log (t, .outbox) = []

theorem safe_poll (hw : Begun t w) : (contract bus).Safe t (poll env limit) w (Polls bus t) := by
  have hidle : Idle w.history t := idle_of_mine_eq_nil hw.mine
  refine safe_ask hidle (fun w1 hmine ↦ safe_pure fun w' hr _ ↦
    ⟨(hidle.of_mine hmine).of_mine hr.mine, nofun⟩)
    fun w1 ws ids hr hlv hexec hlog ↦ ?_
  obtain ⟨rfl, rfl⟩ : [] = ws ∧ candidates env (w1.server.view (t, .outbox)).outbox = ids := by
    cases hexec
    exact ⟨rfl, rfl⟩
  refine ⟨by rwa [List.append_nil], safe_lockRows (hidle.of_mine hr.mine) ?_ (nodup_candidates ..)⟩
  have hmine : mine t w1.history = [] := hr.mine.trans hw.mine
  exact Underway.append_nil {
    returned := fun id hret ↦ absurd hret (not_returned_of_mine_eq_nil hmine id)
    nodup := .nil
    live := fun hne ↦ absurd rfl hne
    log := fun hb ↦ (hr.log hb).trans (hw.log (hr.live hb))
    rest := nofun
    dispatched := nofun
    failures := nofun }

/-! ## Dispatching -/

section Dispatch

variable {p : Polled} {rest : List Polled} {dispatched : List Uuid} {failures : List OutboxFailure}

/-- When a dispatch is over, the process is idle as it was before. -/
theorem Idle.of_dispatch {e' : Event} (hidle : Idle h t)
    (hmine : mine t h' = mine t (.note t (.dispatch id e db) :: h)) :
    Idle (.note t (.returned id e' results) :: h') t := by
  rintro id' ⟨⟨e1, db1, hbeg⟩, hret, hali⟩
  have hne : id' ≠ id := by
    rintro rfl
    exact hret ⟨_, mem_cons_self, decide_eq_true ⟨rfl, rfl⟩⟩
  have hd : InDispatch (.note t (.dispatch id e db) :: h) t id' := by
    refine InDispatch.of_mine hmine ⟨⟨e1, db1, ?_⟩, ?_, ?_⟩
    · rcases mem_cons.mp hbeg with heq | hbeg
      · cases heq
      · exact hbeg
    · rintro ⟨n, hn, hnret⟩
      exact hret ⟨n, mem_cons_of_mem _ hn, hnret⟩
    · exact fun hgone ↦ hali (mem_cons_of_mem _ hgone)
  obtain ⟨⟨e2, db2, hbeg'⟩, hret', hali'⟩ := hd
  refine hidle id' ⟨⟨e2, db2, ?_⟩, ?_, fun hgone ↦ hali' (mem_cons_of_mem _ hgone)⟩
  · rcases mem_cons.mp hbeg' with heq | hbeg'
    · cases heq
      exact absurd rfl hne
    · exact hbeg'
  · rintro ⟨n, hn, hnret⟩
    exact hret' ⟨n, mem_cons_of_mem _ hn, hnret⟩

theorem Underway.locked (hu : Underway bus t (p :: rest) dispatched failures w) :
    Locked w t p.id := by
  have hlv := hu.live (List.cons_ne_nil p rest)
  obtain ⟨hhd, r, hr, hpnd, -⟩ := hu.rest hlv p mem_cons_self
  exact ⟨hlv, hhd, r, hr, hpnd⟩

theorem Underway.begins (hu : Underway bus t rest dispatched failures w) :
    Underway bus t rest dispatched failures (w.addNote t (.dispatch id e db)) :=
  { hu with
    returned := by
      rintro id' ⟨n, hn, hnret⟩
      rcases mem_cons.mp hn with rfl | hn
      · cases hnret
      · exact hu.returned id' ⟨n, hn, hnret⟩
    dispatched := fun hb id' hid ↦ by
      obtain ⟨q, hq, hhol, hd⟩ := hu.dispatched hb id' hid
      exact ⟨q, hq, hhol, hd.mono (subset_cons_self _ _)⟩ }

private theorem returned_cons {id' : Uuid}
    (hret : Returned (.note t (.returned id e results) :: h) t id') :
    id' = id ∨ Returned h t id' := by
  obtain ⟨n, hn, hnret⟩ := hret
  rcases mem_cons.mp hn with rfl | hn
  · exact .inl (of_decide_eq_true hnret).2.symm
  · exact .inr ⟨n, hn, hnret⟩

/-- After a dispatch without failures the event is among those to be marked. -/
theorem Underway.succeeds (hu : Underway bus t (p :: rest) dispatched failures w)
    (hlen : results.length = (bus.matching p.event.type).length)
    (hno : ∀ err ∈ results, err = none) : Underway bus t rest (dispatched ++ [p.id]) failures
      (w.addNote t (.returned p.id p.event results)) where
  returned id hret := by
    simp only [append_assoc, mem_append, mem_singleton]
    rcases returned_cons hret with rfl | hret
    · exact .inr (.inl rfl)
    · exact (mem_append.mp (hu.returned id hret)).imp_right .inr
  nodup := by
    refine List.Perm.nodup ?_ hu.nodup
    simp only [map_cons, append_assoc, singleton_append]
    exact List.perm_middle.append_left _
  live hne := hu.live (List.cons_ne_nil p rest)
  log := hu.log
  rest hb q hq := hu.rest hb q (mem_cons_of_mem _ hq)
  dispatched hb id hid := by
    rcases mem_snoc.mp hid with hid | rfl
    · obtain ⟨q, hq, hhol, hd⟩ := hu.dispatched hb id hid
      exact ⟨q, hq, hhol, hd.mono (subset_cons_self _ _)⟩
    · exact ⟨p, rfl, hu.rest hb p mem_cons_self, results, mem_cons_self, hlen, hno⟩
  failures := hu.failures

theorem Underway.fails (hu : Underway bus t (p :: rest) dispatched failures w) :
    Underway bus t rest dispatched (failures ++ [classifyFailure p.id p.attempts])
      (w.addNote t (.returned p.id p.event results)) where
  returned id hret := by
    simp only [map_append, map_cons, map_nil, mem_append, mem_singleton]
    rcases returned_cons hret with rfl | hret
    · exact .inr (.inr rfl)
    · exact (mem_append.mp (hu.returned id hret)).imp_right .inl
  nodup := by
    have heq : dispatched ++ failures.map (·.id) ++ (p :: rest).map (·.id) =
        dispatched ++ (failures ++ [classifyFailure p.id p.attempts]).map (·.id) ++
          rest.map (·.id) := by
      simp [classifyFailure]
    exact heq ▸ hu.nodup
  live hne := hu.live (List.cons_ne_nil p rest)
  log := hu.log
  rest hb q hq := hu.rest hb q (mem_cons_of_mem _ hq)
  dispatched hb id hid := by
    obtain ⟨q, hq, hhol, hd⟩ := hu.dispatched hb id hid
    exact ⟨q, hq, hhol, hd.mono (subset_cons_self _ _)⟩
  failures hb f hf := by
    rcases mem_append.mp hf with hf | hf
    · exact hu.failures hb f hf
    · exact ⟨p, hu.rest hb p mem_cons_self, mem_singleton.mp hf⟩

theorem safe_publish (hidle : Idle w.history t)
    (hu : Underway bus t (p :: rest) dispatched failures w) :
    (contract bus).Safe t (publish env bus p.id p.event) w fun errs w' ↦ Idle w'.history t ∧
      if errs.isEmpty then Underway bus t rest (dispatched ++ [p.id]) failures w'
      else Underway bus t rest dispatched (failures ++ [classifyFailure p.id p.attempts]) w' := by
  refine safe_perform fun w1 hr1 hs1 c1 _ _ w2 hop1 ↦ ?_
  obtain rfl := World.perform_note (f := c1) hop1
  have hu1 := hu.rely hr1
  refine ⟨keeps_note hs1 fun id (hid : p.id = id) ↦ hid ▸ hu1.locked, ?_⟩
  refine safe_bind ((safe_callHandlers _).imp fun results w3 hres ↦ ?_)
  obtain ⟨hr3, hlen⟩ := hres
  rw [List.length_nil, Nat.zero_add] at hlen
  refine safe_perform fun w4 hr4 hs4 c2 _ _ w5 hop2 ↦ ?_
  obtain rfl := World.perform_note (S := schema H env) (f := c2)
    (n := fun _ ↦ Note.returned p.id p.event results) hop2
  -- the rows were locked all the while, so the event is still the process's own
  have hr := hr3.trans hr4
  have hu4 := hu1.begins.rely hr
  have hidl1 : Idle w1.history t := hidle.of_mine hr1.mine
  refine ⟨keeps_note hs4 fun id (hid : p.id = id) ↦ hid ▸ hu4.locked,
    safe_pure fun w' hr' _ ↦ ⟨(hidl1.of_dispatch hr.mine).of_mine hr'.mine, ?_⟩⟩
  split
  next hemp =>
    refine (hu4.succeeds hlen fun err herr ↦ ?_).rely hr'
    rw [List.isEmpty_iff, filterMap_eq_nil_iff] at hemp
    exact hemp err herr
  · exact hu4.fails.rely hr'

theorem safe_dispatchAll (hidle : Idle w.history t)
    (hu : Underway bus t rest dispatched failures w) :
    (contract bus).Safe t (dispatchAll env bus rest dispatched failures) w fun out w' ↦
      Idle w'.history t ∧ Underway bus t [] out.1 out.2 w' := by
  induction rest generalizing dispatched failures w with
  | nil => exact safe_pure fun w' hr _ ↦ ⟨hidle.of_mine hr.mine, hu.rely hr⟩
  | cons p rest ih =>
    refine safe_bind ((safe_publish hidle hu).imp fun errs w1 hpost ↦ ?_)
    obtain ⟨hidl1, hu1⟩ := hpost
    split_ifs at hu1 ⊢
    · exact ih hidl1 hu1
    · exact ih hidl1 hu1

end Dispatch

/-! ## Recording

What a pass records is about rows that are as it has polled them (`Recording`). -/

/-- A pass with failures still to be recorded. -/
structure Recording (t : T) (failures : List OutboxFailure) (w : AppWorld H env T) : Prop where
  nodup : w.broken (t, .outbox) = false →
    ((w.server.log (t, .outbox)).filterMap Write.target ++ failures.map (·.id)).Nodup
  failures : w.broken (t, .outbox) = false → ∀ f ∈ failures, ∃ p, Holds t w p ∧
    f = classifyFailure p.id p.attempts

theorem Recording.rely {failures : List OutboxFailure} (hr : Recording t failures w)
    (hrely : Rely t w w') : Recording t failures w' where
  nodup hb := by
    rw [hrely.log hb]
    exact hr.nodup (hrely.live hb)
  failures hb f hf := by
    obtain ⟨p, hhol, hcla⟩ := hr.failures (hrely.live hb) f hf
    exact ⟨p, hhol.rely hrely hb, hcla⟩

omit [DecidableEq T] in
/-- A log with one more batch of changes, about other rows that are locked, can be committed. -/
theorem LogSound.append (hlog : LogSound bus w x log)
    (hnd : (log.filterMap Write.target ++ ws.filterMap Write.target).Nodup)
    (hws : ∀ v ∈ ws, (∀ id, v.target = some id → .row id ∈ w.held x) ∧
      Fits bus w.server.db.outbox w.history x.1 v) : LogSound bus w x (log ++ ws) where
  nodup := by rwa [filterMap_append]
  locked v hv := (mem_append.mp hv).elim (hlog.locked v) fun hv ↦ (hws v hv).1
  fits v hv := (mem_append.mp hv).elim (hlog.fits v) fun hv ↦ (hws v hv).2

private theorem updateRow_sublist (rows : List OutboxRow) (id : Uuid) (set : OutboxRow → OutboxRow)
    (v : Write H) : (updateRow rows id set v).1.Sublist [v] := by
  unfold updateRow
  split
  · exact nil_sublist _
  · split
    · exact List.Sublist.refl _
    · exact nil_sublist _

private theorem markPublished_sublist (rows : List OutboxRow) (now : ℤ) (ids : List Uuid) :
    (markPublished (H := H) rows now ids).1.Sublist (ids.map (.setPublished · now)) := by
  induction ids with
  | nil => exact List.Sublist.refl _
  | cons id ids ih =>
    have hrow := updateRow_sublist (H := H) rows id (·.publish now) (.setPublished id now)
    rw [markPublished]
    split
    next ws ws' h h' =>
      rw [h] at hrow
      rw [h'] at ih
      exact hrow.append ih
    · exact nil_sublist _
    · exact nil_sublist _

theorem safe_recordFailures {failures : List OutboxFailure} (hidle : Idle w.history t)
    (hr : Recording t failures w) :
    (contract bus).Safe t (recordFailures env now failures) w fun _ ↦ Released t := by
  induction failures generalizing w with
  | nil => exact safe_commit hidle fun w' _ _ hrel ↦ safe_released () hrel
  | cons f fs ih =>
    rw [recordFailures]
    refine safe_ask hidle (fun w1 hmine ↦ safe_rollback_released (hidle.of_mine hmine))
      fun w1 ws a hrely hlv hexec hlog ↦ ?_
    have hidl1 : Idle w1.history t := hidle.of_mine hrely.mine
    have hr1 := hr.rely hrely
    obtain ⟨p, ⟨hhd, r, hrow, hpnd, -, hatt⟩, rfl⟩ := hr1.failures hlv f mem_cons_self
    have hsub : ws.Sublist [.setFailure p.id (p.attempts + 1)
        (if (classifyFailure p.id p.attempts).deadLetter then some (now p.id) else none)] := by
      rw [← show _ = ws from congrArg Prod.fst hexec]
      exact updateRow_sublist ..
    have hnd := hr1.nodup hlv
    have htar : (ws.filterMap Write.target).Sublist [p.id] := hsub.filterMap Write.target
    refine ⟨hlog.append (hnd.sublist ?_) fun v hv ↦ ?_, ?_⟩
    · exact List.Sublist.append_left
        (htar.trans (List.singleton_sublist.mpr mem_cons_self)) _
    · obtain rfl := mem_singleton.mp (hsub.subset hv)
      refine ⟨fun id hid ↦ by cases hid; exact hhd, r, hrow, hpnd, by rw [hatt], ?_⟩
      by_cases hdead : maxOutboxAttempts ≤ p.attempts + 1 <;> simp [classifyFailure, hdead]
    have hnx : Recording t fs (w1.append (t, .outbox) ws) := by
      refine ⟨fun hb ↦ ?_, fun hb f hf ↦ hr1.failures hb f (mem_cons_of_mem _ hf)⟩
      rw [World.log_append_self, filterMap_append, append_assoc]
      exact hnd.sublist (List.Sublist.append_left (htar.append (List.Sublist.refl _)) _)
    rcases a with e | _
    · exact safe_rollback_released hidl1
    · exact ih hidl1 hnx

theorem safe_record {dispatched : List Uuid} {failures : List OutboxFailure}
    (hidle : Idle w.history t) (hu : Underway bus t [] dispatched failures w) :
    (contract bus).Safe t (record env startedAt now dispatched failures) w fun _ ↦ Released t := by
  have hnd : (dispatched ++ failures.map (·.id)).Nodup := List.append_nil (_ ++ _) ▸ hu.nodup
  unfold record
  split_ifs with hno hemp
  · exact safe_rollback_released hidle
  · refine safe_recordFailures hidle ⟨fun hb ↦ ?_, hu.failures⟩
    rw [hu.log hb]
    exact hnd.sublist (List.sublist_append_right ..)
  · refine safe_ask hidle (fun w1 hmine ↦ safe_rollback_released (hidle.of_mine hmine))
      fun w1 ws a hr hlv hexec hlog ↦ ?_
    have hidl1 : Idle w1.history t := hidle.of_mine hr.mine
    have hu1 := hu.rely hr
    have hsub : ws.Sublist (dispatched.map (.setPublished · startedAt)) := by
      rw [← show _ = ws from congrArg Prod.fst hexec]
      exact markPublished_sublist ..
    have htar : (ws.filterMap Write.target).Sublist dispatched := by
      have h := hsub.filterMap Write.target
      rwa [filterMap_map, show Write.target ∘ (.setPublished · startedAt : Uuid → Write H) =
        some from rfl, List.filterMap_some] at h
    refine ⟨hlog.append ?_ fun v hv ↦ ?_, ?_⟩
    · rw [hu1.log hlv]
      exact hnd.sublist (htar.trans (List.sublist_append_left ..))
    · obtain ⟨id, hid, rfl⟩ := mem_map.mp (hsub.subset hv)
      obtain ⟨p, rfl, ⟨hhd, r, hrow, hpnd, heve, -⟩, hd⟩ := hu1.dispatched hlv id hid
      exact ⟨fun id' hid' ↦ by cases hid'; exact hhd, r, hrow, hpnd, heve ▸ hd⟩
    have hnx : Recording t failures (w1.append (t, .outbox) ws) := by
      refine ⟨fun hb ↦ ?_, hu1.failures⟩
      rw [World.log_append_self, hu1.log hlv, nil_append]
      exact hnd.sublist (htar.append (List.Sublist.refl _))
    rcases a with e | _
    · exact safe_rollback_released hidl1
    · exact safe_recordFailures hidl1 hnx

theorem safe_processOnce {configured : ℤ} (hmine : mine t w.history = []) (hrel : Released t w) :
    (contract bus).Safe t (processOnce env bus configured startedAt now) w fun _ ↦ Released t := by
  refine safe_begin (idle_of_mine_eq_nil hmine) hrel (fun w1 _ hrel ↦ safe_released () hrel)
    fun w1 hmn1 _ hlog _ ↦ ?_
  refine safe_bind ((safe_poll ⟨hmn1.trans hmine, fun _ ↦ hlog⟩).imp fun out w2 hpost ↦ ?_)
  obtain ⟨hidle, hbat⟩ := hpost
  rcases out with _ | _ | ⟨p, batch⟩
  · exact safe_rollback_released hidle
  · exact safe_commit hidle fun w' _ _ hrel ↦ safe_released () hrel
  · refine safe_bind ((safe_dispatchAll hidle (hbat _ rfl)).imp fun out w3 hpost ↦ ?_)
    exact safe_record hpost.1 hpost.2

/-! ## Sweeping

A sweep locks each dead-lettered row and looks at it again before it requeues it. -/

private theorem getElem?_of_replay {r : OutboxRow} (hne : id ∉ log.filterMap Write.target)
    (hr : (replay (S := schema H env) db log).outbox[id]? = some r) :
    db.outbox[id]? = some r ∨ ∃ e, r = ⟨e, none, 0, none⟩ := by
  rcases hold : db.outbox[id]? with _ | r'
  · right
    induction log generalizing db with
    | nil =>
      rw [replay_nil, hold] at hr
      cases hr
    | cons v log ih =>
      have hv : v.target ≠ some id := fun hid ↦ hne (mem_filterMap.mpr ⟨v, mem_cons_self, hid⟩)
      have hlog : id ∉ log.filterMap Write.target := fun hmem ↦
        hne (((List.sublist_cons_self v log).filterMap _).subset hmem)
      rw [replay_cons] at hr
      rcases hnx : (db.apply v).outbox[id]? with _ | r'
      · exact ih hlog hr hnx
      · -- the row is inserted here and not touched later
        rw [getElem?_replay_of_ne hlog hnx] at hr
        rcases getElem?_of_apply hv hnx with hold' | ⟨-, e, rfl⟩
        · rw [hold] at hold'
          cases hold'
        · cases hr
          exact ⟨e, rfl⟩
  · left
    rwa [getElem?_replay_of_ne hne hold] at hr

private theorem requeue_sublist (rows : List OutboxRow) (id : Uuid) (cutoff : ℤ) :
    (requeue (H := H) rows id cutoff).1.Sublist [.setRequeued id] ∧
      ((requeue (H := H) rows id cutoff).1 ≠ [] → ∃ r, rows[id]? = some r ∧ r.Expired cutoff) := by
  unfold requeue
  split
  · exact ⟨nil_sublist _, fun hne ↦ absurd rfl hne⟩
  next r hr =>
    split
    next hexp =>
      have hsub := updateRow_sublist (H := H) rows id (·.requeue) (.setRequeued id)
      split
      next ws h =>
        rw [h] at hsub
        exact ⟨hsub, fun _ ↦ ⟨r, hr, hexp⟩⟩
      · exact ⟨nil_sublist _, fun hne ↦ absurd rfl hne⟩
    · exact ⟨nil_sublist _, fun hne ↦ absurd rfl hne⟩

/-- A process that has dispatched nothing and locked no row. -/
def Quiet (t : T) (w : AppWorld H env T) : Prop := mine t w.history = [] ∧ Released t w

theorem safe_quiet (a : α) (hmine : mine t w.history = []) (hrel : Released t w) :
    (contract bus).Safe t (pure a : App H env T α) w fun _ ↦ Quiet t :=
  safe_pure fun _ hr _ ↦ ⟨hr.mine.trans hmine, hrel.rely hr⟩

theorem safe_rollback_quiet (a : α) (hmine : mine t w.history = []) :
    (contract bus).Safe t (do Client.rollback .outbox; pure a : App H env T α) w fun _ ↦ Quiet t :=
  safe_rollback (idle_of_mine_eq_nil hmine) fun _ hmn' hrel ↦ safe_quiet a (hmn'.trans hmine) hrel

theorem safe_requeueRows {requeued : ℕ} (hmine : mine t w.history = [])
    (hnd : w.broken (t, .outbox) = false →
      ((w.server.log (t, .outbox)).filterMap Write.target ++ ids).Nodup) :
    (contract bus).Safe t (requeueRows env cutoff ids requeued) w fun _ ↦ Quiet t := by
  induction ids generalizing requeued w with
  | nil =>
    exact safe_commit (idle_of_mine_eq_nil hmine) fun w' ok hmn' hrel ↦
      safe_quiet _ (hmn'.trans hmine) hrel
  | cons id ids ih =>
    refine safe_lock (idle_of_mine_eq_nil hmine)
      (fun w1 hmn' ↦ safe_rollback_quiet none (hmn'.trans hmine)) fun w1 hr1 hlv1 ↦ ?_
    have hmn1 : mine t w1.history = [] := hr1.mine.trans hmine
    refine safe_ask (idle_of_mine_eq_nil hmn1)
      (fun w2 hmn' ↦ safe_rollback_quiet none (hmn'.trans hmn1))
      fun w2 ws a hr2 hlv2 hexec hlog ↦ ?_
    have hmn2 : mine t w2.history = [] := hr2.mine.trans hmn1
    have hhd : .row id ∈ w2.held (t, .outbox) :=
      hr2.held hlv2 (World.held_grant_self w1 _ _ ▸ mem_insert ..)
    have hnd2 : ((w2.server.log (t, .outbox)).filterMap Write.target ++ id :: ids).Nodup := by
      rw [hr2.log hlv2]
      exact (hr1.log hlv1).symm ▸ hnd (hr1.live hlv1)
    obtain ⟨hsub, hexp⟩ := requeue_sublist (H := H) (w2.server.view (t, .outbox)).outbox id cutoff
    rw [show (requeue _ id cutoff).1 = ws from congrArg Prod.fst hexec] at hsub hexp
    have htar : (ws.filterMap Write.target).Sublist [id] := hsub.filterMap Write.target
    refine ⟨hlog.append (hnd2.sublist ?_) fun v hv ↦ ?_, ?_⟩
    · exact List.Sublist.append_left
        (htar.trans (List.singleton_sublist.mpr mem_cons_self)) _
    · obtain rfl := mem_singleton.mp (hsub.subset hv)
      obtain ⟨r, hr, hunp, at', hat, -⟩ := hexp (List.ne_nil_of_mem hv)
      have hnew : id ∉ (w2.server.log (t, .outbox)).filterMap Write.target := fun hmem ↦
        List.disjoint_of_nodup_append hnd2 hmem mem_cons_self
      refine ⟨fun id' hid' ↦ by cases hid'; exact hhd, r, ?_, hunp, Option.isSome_of_mem hat⟩
      rcases getElem?_of_replay hnew hr with hr | ⟨e, rfl⟩
      · exact hr
      · cases hat
    have hnx : mine t (w2.append (t, .outbox) ws).history = [] ∧
        (((w2.append (t, .outbox) ws).server.log (t, .outbox)).filterMap Write.target ++
          ids).Nodup := by
      refine ⟨hmn2, ?_⟩
      rw [World.log_append_self, filterMap_append, append_assoc]
      exact hnd2.sublist (List.Sublist.append_left (htar.append (List.Sublist.refl _)) _)
    rcases a with e | hit
    · exact safe_rollback_quiet none hmn2
    · exact ih hnx.1 fun _ ↦ hnx.2

section Jobs

variable (hmine : mine t w.history = []) (hrel : Released t w)

include hmine hrel

theorem safe_requeueDeadLettered :
    (contract bus).Safe t (requeueDeadLettered env cutoff) w fun _ ↦ Quiet t := by
  refine safe_begin (idle_of_mine_eq_nil hmine) hrel
    (fun w1 hmn' hrel ↦ safe_quiet none (hmn'.trans hmine) hrel) fun w1 hmn' _ hlog _ ↦ ?_
  have hmn1 := hmn'.trans hmine
  refine safe_ask (idle_of_mine_eq_nil hmn1)
    (fun w2 hmn' ↦ safe_rollback_quiet none (hmn'.trans hmn1))
    fun w2 ws ids hr hlv hexec hsou ↦ ?_
  obtain ⟨rfl, rfl⟩ :
      [] = ws ∧ deadLettered (w2.server.view (t, .outbox)).outbox cutoff = ids := by
    cases hexec
    exact ⟨rfl, rfl⟩
  refine ⟨by rwa [List.append_nil], safe_requeueRows (hr.mine.trans hmn1) fun _ ↦ ?_⟩
  rw [World.log_append_self, hr.log hlv, hlog]
  exact nodup_map_zipIdx_filter ..

theorem safe_pruneJobRuns :
    (contract bus).Safe t (pruneJobRuns env cutoff) w fun _ w' ↦ Released t w' := by
  refine safe_begin (idle_of_mine_eq_nil hmine) hrel (fun w1 _ hrel ↦ safe_released _ hrel)
    fun w1 hmn' _ hlog _ ↦ ?_
  have hidle : Idle w1.history t := idle_of_mine_eq_nil (hmn'.trans hmine)
  refine safe_ask hidle (fun w2 hmn' ↦ ?_) fun w2 ws n hr hlv hexec hsou ↦ ?_
  · exact safe_rollback (hidle.of_mine hmn') fun w3 _ hrel ↦ safe_released _ hrel
  · obtain rfl : [.pruneJobRuns cutoff] = ws := congrArg Prod.fst hexec
    refine ⟨hsou.append ?_ fun v hv ↦ ?_, ?_⟩
    · exact (List.append_nil _).symm ▸ hsou.nodup
    · obtain rfl := mem_singleton.mp hv
      exact ⟨nofun, trivial⟩
    · exact safe_commit (hidle.of_mine hr.mine) fun w3 _ _ hrel ↦ safe_released _ hrel

theorem safe_outboxSweepJob {requeueAfter jobRunRetention now later : ℤ} :
    (contract bus).Safe t (outboxSweepJob env requeueAfter jobRunRetention now later) w
      fun _ w' ↦ Released t w' := by
  have hreq : (contract bus).Safe t (if 0 < requeueAfter then
      requeueDeadLettered env (now - requeueAfter) else pure (some 0)) w fun _ ↦ Quiet t := by
    split_ifs
    · exact safe_requeueDeadLettered hmine hrel
    · exact safe_quiet _ hmine hrel
  refine safe_bind (hreq.imp fun requeued w1 hpost ↦ ?_)
  obtain ⟨hmn1, hrel1⟩ := hpost
  rcases requeued with _ | requeued
  · exact safe_released _ hrel1
  have hpru : (contract bus).Safe t (if 0 < jobRunRetention then
      pruneJobRuns env (later - jobRunRetention) else pure (some 0)) w1
      fun _ w' ↦ Released t w' := by
    split_ifs
    · exact safe_pruneJobRuns hmn1 hrel1
    · exact safe_released _ hrel1
  refine safe_bind (hpru.imp fun pruned w2 hrel2 ↦ ?_)
  rcases pruned with _ | pruned
  · exact safe_released _ hrel2
  · exact safe_released _ hrel2

end Jobs

theorem safe_proc (job : Job H) (hmine : mine t w.history = []) (hrel : Released t w) :
    (contract bus).Safe t (job.proc env bus) w fun _ w' ↦ Released t w' := by
  cases job with
  | pass configured startedAt now => exact safe_processOnce hmine hrel
  | sweep requeueAfter jobRunRetention now later =>
    exact safe_bind ((safe_outboxSweepJob hmine hrel).imp fun _ w1 hrel1 ↦
      safe_released () hrel1)
  | business now p events =>
    refine safe_bind ((safe_runTxn (business_businessTxn now p events) w).imp
      fun _ w1 hr1 ↦ ?_)
    exact safe_released () (hrel.rely hr1)

end FuelGrid.Events
