import FuelGrid.Events.Progress

/-!
# The contract of the outbox

What the processes around the outbox may assume of each other. A pass of the publisher polls rows
and keeps them locked while their events are dispatched. Whoever changes a row holds its lock, so
the rows of a pass stay as it has read them for as long as its session lives (`Rely`).
-/

namespace FuelGrid.Events

open Sql Concurrent

variable {H : Schema} {env : Env} {T : Type} [DecidableEq T] {bus : Bus H}
  {h h' : List (AppEntry H env T)} {t u : T} {id : Uuid} {n : Note H} {r : OutboxRow}

/-! ## What a process has done -/

/-- The entries of process `t` other than its commits. -/
def mine (t : T) (h : List (AppEntry H env T)) : List (AppEntry H env T) :=
  h.filter fun
    | .note u _ => u = t
    | .gone u => u = t
    | .wrote _ _ => false

/-- The entry says that a dispatch of the event by process `t` is over. -/
def isReturn (t : T) (id : Uuid) : AppEntry H env T → Bool
  | .note u (.returned id' _ _) => decide (u = t ∧ id' = id)
  | _ => false

/-- A dispatch of the event by process `t` is over. -/
def Returned (h : List (AppEntry H env T)) (t : T) (id : Uuid) : Prop :=
  ∃ n ∈ h, isReturn t id n = true
  deriving Decidable

/-- Process `t` has begun to dispatch the event, and its handlers are at work. -/
structure InDispatch (h : List (AppEntry H env T)) (t : T) (id : Uuid) : Prop where
  begun : ∃ e db, .note t (.dispatch id e db) ∈ h
  unfinished : ¬Returned h t id
  alive : .gone t ∉ h

theorem mem_mine_note : .note t n ∈ mine t h ↔ .note t n ∈ h := by
  simp [mine]

private theorem mem_mine_gone : .gone t ∈ mine t h ↔ .gone t ∈ h := by
  simp [mine]

theorem returned_mine : Returned (mine t h) t id ↔ Returned h t id := by
  refine ⟨fun ⟨n, hn, hret⟩ ↦ ⟨n, mem_of_mem_filter hn, hret⟩, fun ⟨n, hn, hret⟩ ↦ ?_⟩
  refine ⟨n, mem_filter.mpr ⟨hn, ?_⟩, hret⟩
  rcases n with ⟨u, _ | ⟨id', e, results⟩⟩ | _ | _
  · cases hret
  · have hu := of_decide_eq_true hret
    exact decide_eq_true hu.1
  · cases hret
  · cases hret

theorem returned_iff (heq : mine t h' = mine t h) : Returned h' t id ↔ Returned h t id := by
  rw [← returned_mine, heq, returned_mine]

theorem InDispatch.of_mine (heq : mine t h' = mine t h) (hd : InDispatch h' t id) :
    InDispatch h t id where
  begun := by
    obtain ⟨e, db, hmem⟩ := hd.begun
    exact ⟨e, db, mem_mine_note.mp (heq ▸ mem_mine_note.mpr hmem)⟩
  unfinished := fun hret ↦ hd.unfinished ((returned_iff heq).mpr hret)
  alive := fun hgone ↦ hd.alive (mem_mine_gone.mp (heq ▸ mem_mine_gone.mpr hgone))

/-! ## The contract

The session of a pass sits idle while the handlers run, and the server may end it then. The pass
goes on with its batch, while the rows are free for the others. The contract therefore comes with
the condition that the server does not end the session of a pass before the events it has locked are
dispatched (`Dispatching`). -/

instance (w : AppWorld H env T) (x : T × Conn) (k : LockKey H) : Decidable (k ∈ w.held x) :=
  State.decidableHeld w.server x k

/-- The session of process `t` has locked the row of an event that the process has not yet
dispatched. -/
def Dispatching (w : AppWorld H env T) (t : T) : Prop :=
  ∃ id ∈ List.range w.server.db.outbox.length, .row id ∈ w.held (t, .outbox) ∧
    (∃ r ∈ w.server.db.outbox[id]?, r.Pending) ∧ ¬Returned w.history t id
  deriving Decidable

theorem dispatching_of {w : AppWorld H env T} (hhd : .row id ∈ w.held (t, .outbox))
    (hr : w.server.db.outbox[id]? = some r) (hpnd : r.Pending)
    (hret : ¬Returned w.history t id) : Dispatching w t := by
  obtain ⟨hlt, -⟩ := List.getElem?_eq_some_iff.mp hr
  exact ⟨id, List.mem_range.mpr hlt, hhd, ⟨r, hr, hpnd⟩, hret⟩

/-- How the shared state can move under the outbox session of process `t`. -/
structure Rely (t : T) (w w' : AppWorld H env T) : Prop where
  history : w.history <:+ w'.history
  mine : mine t w'.history = mine t w.history
  released : w'.held (t, .outbox) ⊆ w.held (t, .outbox)
  broken : w.broken (t, .outbox) = true → w'.broken (t, .outbox) = true
  lost : w.broken (t, .outbox) = false → w'.broken (t, .outbox) = true → ¬Dispatching w t
  log : w'.broken (t, .outbox) = false →
    w'.server.log (t, .outbox) = w.server.log (t, .outbox)
  held : w'.broken (t, .outbox) = false → w.held (t, .outbox) ⊆ w'.held (t, .outbox)
  rows : w'.broken (t, .outbox) = false → ∀ id r, .row id ∈ w.held (t, .outbox) →
    w.server.db.outbox[id]? = some r → w'.server.db.outbox[id]? = some r

theorem Rely.live {w w' : AppWorld H env T} (hr : Rely t w w')
    (hlv : w'.broken (t, .outbox) = false) : w.broken (t, .outbox) = false := by
  rcases hb : w.broken (t, .outbox) with _ | _
  · rfl
  · rw [hr.broken hb] at hlv
    cases hlv

theorem Rely.refl (t : T) (w : AppWorld H env T) : Rely t w w where
  history := suffix_rfl
  mine := rfl
  released := subset_rfl
  broken hb := hb
  lost hb hb' := by
    rw [hb] at hb'
    cases hb'
  log _ := rfl
  held _ := subset_rfl
  rows _ _ _ _ hr := hr

theorem Rely.trans {w w' w'' : AppWorld H env T} (hr : Rely t w w') (hr' : Rely t w' w'') :
    Rely t w w'' where
  history := hr.history.trans hr'.history
  mine := hr'.mine.trans hr.mine
  released := hr'.released.trans hr.released
  broken hb := hr'.broken (hr.broken hb)
  lost hb hb'' := by
    rcases hb' : w'.broken (t, .outbox) with _ | _
    · -- the session was lost in the second move: until then it kept its locks and their rows
      rintro ⟨id, -, hhd, ⟨r, hrow, hpnd⟩, hret⟩
      exact hr'.lost hb' hb'' (dispatching_of (hr.held hb' hhd) (hr.rows hb' id r hhd hrow) hpnd
        fun hret' ↦ hret ((returned_iff hr.mine).mp hret'))
    · exact hr.lost hb hb'
  log hb := (hr'.log hb).trans (hr.log (hr'.live hb))
  held hb := (hr.held (hr'.live hb)).trans (hr'.held hb)
  rows hb id r hhd hrow :=
    hr'.rows hb id r (hr.held (hr'.live hb) hhd) (hr.rows (hr'.live hb) id r hhd hrow)

/-- A move that leaves the session of process `t` and the rows it has locked alone. -/
theorem Rely.of_frame {w w' : AppWorld H env T} (hhis : w.history <:+ w'.history)
    (hmn : Events.mine t w'.history = Events.mine t w.history)
    (hhd : w'.held (t, .outbox) = w.held (t, .outbox))
    (hbro : w'.broken (t, .outbox) = w.broken (t, .outbox))
    (hlog : w'.server.log (t, .outbox) = w.server.log (t, .outbox))
    (hrs : ∀ id r, .row id ∈ w.held (t, .outbox) → w.server.db.outbox[id]? = some r →
      w'.server.db.outbox[id]? = some r) : Rely t w w' where
  history := hhis
  mine := hmn
  released := hhd.le
  broken hb := hbro.trans hb
  lost hb hb' := by
    rw [hbro, hb] at hb'
    cases hb'
  log _ := hlog
  held _ := hhd.ge
  rows _ := hrs

/-- What waits in the log of a session can be committed: the changes fit, they are about rows that
the session has locked, and about each row there is one. -/
structure LogSound (bus : Bus H) (w : AppWorld H env T) (x : T × Conn) (log : List (Write H)) :
    Prop where
  nodup : (log.filterMap Write.target).Nodup
  locked : ∀ v ∈ log, ∀ id, v.target = some id → .row id ∈ w.held x
  fits : ∀ v ∈ log, Fits bus w.server.db.outbox w.history x.1 v

/-- The invariant. -/
structure Sound (bus : Bus H) (w : AppWorld H env T) : Prop where
  table : TableSound bus w.server.db.outbox w.history
  log : ∀ x, LogSound bus w x (w.server.log x)
  /-- Handlers and business transactions lock no row of the outbox. -/
  keys : ∀ t id, .row id ∉ w.held (t, .work)
  unshared : ∀ id, w.server.sharers (.row id) = []
  dispatching : ∀ t id, InDispatch w.history t id → w.broken (t, .outbox) = false ∧
    .row id ∈ w.held (t, .outbox) ∧ ∃ r, w.server.db.outbox[id]? = some r ∧ r.Pending

/-- The terms on which the processes of the application interleave. -/
def contract (bus : Bus H) :
    Contract (sessions (schema H env) T (Note H) [Conn.outbox, Conn.work]) where
  inv := Sound bus
  rely := Rely
  cond _ _ _ _ := True
  condEvent x w := x.2 = .outbox → ¬Dispatching w x.1
  rely_refl := Rely.refl
  rely_trans := Rely.trans

/-! ## Operations keep the contract

The invariant (`Sound`) ties the changes that wait in the logs to the rows they are about, so that a
commit keeps it whatever the process is that commits. -/

/-- No handler is at work for process `t`. -/
def Idle (h : List (AppEntry H env T)) (t : T) : Prop := ∀ id, ¬InDispatch h t id

section Operations

variable {w : AppWorld H env T} {x y : T × Conn}

omit [DecidableEq T] in
theorem LogSound.nil (bus : Bus H) (w : AppWorld H env T) (x : T × Conn) : LogSound bus w x [] where
  nodup := .nil
  locked := nofun
  fits := nofun

theorem keeps_close (hs : Sound bus w) (hidle : x.2 = .outbox → Idle w.history x.1) :
    (contract bus).Keeps (fun u ↦ (u, .outbox) ≠ x) w (w.close x) where
  inv := {
    table := hs.table
    log := fun y ↦ by
      by_cases hy : y = x
      · rw [hy, World.log_close_self]
        exact .nil ..
      · obtain ⟨hnd, hlck, hfits⟩ := hs.log y
        rw [World.log_close_of_ne hy]
        exact ⟨hnd, (World.held_close_of_ne hy).symm ▸ hlck, hfits⟩
    keys := fun t id hhd ↦ hs.keys t id (World.held_close_subset w x _ hhd)
    unshared := fun id ↦ filter_eq_nil_iff.mpr fun u hu ↦ by simp [hs.unshared id] at hu
    dispatching := fun t id hd ↦ by
      have hne : (t, .outbox) ≠ x := by
        rintro rfl
        exact hidle rfl id hd
      rw [World.broken_close_of_ne hne, World.held_close_of_ne hne]
      exact hs.dispatching t id hd }
  rely u hu := .of_frame suffix_rfl rfl (World.held_close_of_ne hu) (World.broken_close_of_ne hu)
    (World.log_close_of_ne hu) fun _ _ _ hr ↦ hr

theorem keeps_fail (hs : Sound bus w) (hidle : x.2 = .outbox → Idle w.history x.1) :
    (contract bus).Keeps (fun u ↦ (u, .outbox) ≠ x) w (w.fail x) where
  inv := {
    table := hs.table
    log := fun y ↦ ⟨(hs.log y).nodup, (hs.log y).locked, (hs.log y).fits⟩
    keys := hs.keys
    unshared := hs.unshared
    dispatching := fun t id hd ↦ by
      have hne : (t, .outbox) ≠ x := by
        rintro rfl
        exact hidle rfl id hd
      rw [World.broken_fail_of_ne hne]
      exact hs.dispatching t id hd }
  rely u hu := .of_frame suffix_rfl rfl rfl (World.broken_fail_of_ne hu) rfl fun _ _ _ hr ↦ hr

theorem keeps_grant {k : LockKey H} (hs : Sound bus w) (hfr : w.server.Free x k)
    (hkey : x.2 = .work → ∀ id, k ≠ .row id) :
    (contract bus).Keeps (fun u ↦ (u, .outbox) ≠ x) w (w.grant x k) where
  inv := by
    have hsub : ∀ y, w.held y ⊆ (w.grant x k).held y := fun y ↦ by
      by_cases hy : y = x
      · rw [hy, World.held_grant_self]
        exact subset_insert ..
      · rw [World.held_grant_of_ne hy hfr]
    exact {
      table := hs.table
      log := fun y ↦ ⟨(hs.log y).nodup, fun v hv id hid ↦ hsub y ((hs.log y).locked v hv id hid),
        (hs.log y).fits⟩
      keys := fun t id hhd ↦ by
        by_cases hy : (t, .work) = x
        · rw [hy, World.held_grant_self] at hhd
          rcases hhd with heq | hhd
          · exact hkey (hy ▸ rfl) id heq.symm
          · exact hs.keys t id (hy ▸ hhd)
        · rw [World.held_grant_of_ne hy hfr] at hhd
          exact hs.keys t id hhd
      unshared := fun id ↦ by
        rw [World.grant, State.grant]
        cases k with
        | row id' => exact hs.unshared id
        | work k =>
          rcases hk : H.shares k with _ | k'
          · simpa [hk] using hs.unshared id
          · simpa [hk, Function.update_apply] using hs.unshared id
      dispatching := fun t id hd ↦ by
        obtain ⟨hlv, hhd, hrow⟩ := hs.dispatching t id hd
        exact ⟨hlv, hsub _ hhd, hrow⟩ }
  rely u hu := .of_frame suffix_rfl rfl (World.held_grant_of_ne hu hfr) rfl rfl
    fun _ _ _ hr ↦ hr

theorem keeps_append {ws : List (Write H)} (hs : Sound bus w)
    (hlog : LogSound bus w x (w.server.log x ++ ws)) :
    (contract bus).Keeps (fun u ↦ (u, .outbox) ≠ x) w (w.append x ws) where
  inv := {
    table := hs.table
    log := fun y ↦ by
      by_cases hy : y = x
      · rw [hy, World.log_append_self]
        exact ⟨hlog.nodup, hlog.locked, hlog.fits⟩
      · rw [World.log_append_of_ne hy]
        exact ⟨(hs.log y).nodup, (hs.log y).locked, (hs.log y).fits⟩
    keys := hs.keys
    unshared := hs.unshared
    dispatching := hs.dispatching }
  rely u hu := .of_frame suffix_rfl rfl rfl rfl (World.log_append_of_ne (w := w) hu ws)
    fun _ _ _ hr ↦ hr

theorem mine_wrote (t : T) (x : T × Conn) (ws : List (Write H)) (h : List (AppEntry H env T)) :
    mine t (ws.map (Entry.wrote (S := schema H env) x) ++ h) = mine t h := by
  rw [mine, filter_append, filter_eq_nil_iff.mpr, nil_append]
  · rfl
  · intro n hn
    obtain ⟨v, -, rfl⟩ := mem_map.mp hn
    exact Bool.false_ne_true

private theorem getElem?_view_of_locked (hs : Sound bus w) (hne : y ≠ x) (hhd : .row id ∈ w.held y)
    (hr : w.server.db.outbox[id]? = some r) : (w.server.view x).outbox[id]? = some r := by
  refine getElem?_replay_of_ne (fun hmem ↦ ?_) hr
  obtain ⟨v, hv, hid⟩ := mem_filterMap.mp hmem
  exact hne (eq_of_held rfl hhd ((hs.log x).locked v hv id hid))

theorem keeps_commit (hs : Sound bus w) (hidle : x.2 = .outbox → Idle w.history x.1) :
    (contract bus).Keeps (fun u ↦ (u, .outbox) ≠ x) w (w.commit x) where
  inv := {
    table := hs.table.replay (hs.log x).nodup (hs.log x).fits x
    log := fun y ↦ by
      by_cases hy : y = x
      · rw [hy]
        exact (World.log_close_self w x).symm ▸ .nil ..
      · have hlog : (w.commit x).server.log y = w.server.log y := World.log_close_of_ne hy
        have hhd : (w.commit x).held y = w.held y := World.held_close_of_ne hy
        obtain ⟨hnd, hlck, hfits⟩ := hs.log y
        rw [hlog]
        refine ⟨hnd, hhd.symm ▸ hlck, fun v hv ↦ (hfits v hv).mono (fun id r hid hr ↦ ?_)
          (List.subset_append_right _ _)⟩
        exact getElem?_view_of_locked hs hy (hlck v hv id hid) hr
    keys := fun t id hhd ↦ hs.keys t id (World.held_close_subset w x _ hhd)
    unshared := fun id ↦ filter_eq_nil_iff.mpr fun u hu ↦ by simp [hs.unshared id] at hu
    dispatching := fun t id hd ↦ by
      have hd' : InDispatch w.history t id := hd.of_mine (mine_wrote t x _ w.history)
      have hne : (t, .outbox) ≠ x := by
        rintro rfl
        exact hidle rfl id hd'
      obtain ⟨hlv, hhd, r, hr, hpnd⟩ := hs.dispatching t id hd'
      exact ⟨(World.broken_close_of_ne hne).trans hlv, (World.held_close_of_ne hne).ge hhd, r,
        getElem?_view_of_locked hs hne hhd hr, hpnd⟩ }
  rely u hu := .of_frame (List.suffix_append _ _) (mine_wrote u x _ _) (World.held_close_of_ne hu)
    (World.broken_close_of_ne hu) (World.log_close_of_ne hu)
    fun _ _ ↦ getElem?_view_of_locked hs hu

/-- The row of the event is locked by the session of process `t`, which lives, and pending. -/
def Locked (w : AppWorld H env T) (t : T) (id : Uuid) : Prop :=
  w.broken (t, .outbox) = false ∧ .row id ∈ w.held (t, .outbox) ∧
    ∃ r, w.server.db.outbox[id]? = some r ∧ r.Pending

private theorem mine_note_of_ne (hne : u ≠ t) : mine u (.note t n :: h) = mine u h :=
  filter_cons_of_neg (by simpa using hne.symm)

private theorem mine_gone_of_ne (hne : u ≠ t) : mine u (.gone t :: h) = mine u h :=
  filter_cons_of_neg (by simpa using hne.symm)

theorem keeps_note (hs : Sound bus w)
    (hlck : ∀ id, Dispatches id (.note t n : AppEntry H env T) → Locked w t id) :
    (contract bus).Keeps (· ≠ t) w (w.addNote t n) where
  inv := {
    table := hs.table.silent (fun _ ↦ ⟨fun _ ↦ rfl, id⟩) fun id hd ↦ by
      obtain ⟨-, -, r, hr, hpnd⟩ := hlck id hd
      exact ⟨r, hr, hpnd.1⟩
    log := fun y ↦ ⟨(hs.log y).nodup, (hs.log y).locked, fun v hv ↦ ((hs.log y).fits v hv).mono
      (fun _ _ _ hr ↦ hr) (subset_cons_self _ _)⟩
    keys := hs.keys
    unshared := hs.unshared
    dispatching := fun u id hd ↦ by
      by_cases hu : u = t
      · subst hu
        obtain ⟨⟨e, db, hbeg⟩, hret, hali⟩ := hd
        rcases mem_cons.mp hbeg with heq | hbeg
        · cases heq
          exact hlck id rfl
        · refine hs.dispatching u id ⟨⟨e, db, hbeg⟩, fun hret' ↦ hret ?_, fun hgone ↦ hali ?_⟩
          · obtain ⟨m, hm, hmret⟩ := hret'
            exact ⟨m, mem_cons_of_mem _ hm, hmret⟩
          · exact mem_cons_of_mem _ hgone
      · exact hs.dispatching u id (hd.of_mine (mine_note_of_ne hu)) }
  rely u hu := .of_frame (List.suffix_cons _ _) (mine_note_of_ne hu) rfl rfl rfl fun _ _ _ hr ↦ hr

/-- A session can end when nothing that it has locked waits to be dispatched. -/
theorem keeps_lose (hs : Sound bus w) (hc : x.2 = .outbox → ¬Dispatching w x.1) :
    (contract bus).Keeps (fun _ ↦ True) w (w.lose x) := by
  have hidle : x.2 = .outbox → Idle w.history x.1 := fun hx id hd ↦ by
    obtain ⟨-, hhd, r, hr, hpnd⟩ := hs.dispatching x.1 id hd
    exact hc hx (dispatching_of hhd hr hpnd hd.unfinished)
  have hcl := (keeps_close hs hidle).inv
  have hlog : ∀ y, LogSound bus (w.lose x) y ((w.lose x).server.log y) := fun y ↦
    ⟨(hcl.log y).nodup, (hcl.log y).locked, (hcl.log y).fits⟩
  refine ⟨⟨hcl.table, hlog, hcl.keys, hcl.unshared, fun t id hd ↦ ?_⟩, fun u _ ↦ ?_⟩
  · have hne : (t, .outbox) ≠ x := by
      rintro rfl
      exact hidle rfl id hd
    rw [World.broken_lose_of_ne hne, World.held_lose, World.held_close_of_ne hne]
    exact hs.dispatching t id hd
  · by_cases hu : (u, .outbox) = x
    · subst hu
      have hbro : (w.lose (u, .outbox)).broken (u, .outbox) = true :=
        update_self ..
      exact {
        history := suffix_rfl
        mine := rfl
        released := World.held_close_subset w _ _
        broken := fun _ ↦ hbro
        lost := fun _ _ ↦ hc rfl
        log := fun hb ↦ by cases hbro.symm.trans hb
        held := fun hb ↦ by cases hbro.symm.trans hb
        rows := fun hb ↦ by cases hbro.symm.trans hb }
    · exact .of_frame suffix_rfl rfl (World.held_close_of_ne hu) (World.broken_lose_of_ne hu)
        (World.log_close_of_ne hu) fun _ _ _ hr ↦ hr

private theorem keeps_gone (hs : Sound bus w) :
    (contract bus).Keeps (· ≠ t) w { w with history := .gone t :: w.history } where
  inv := {
    table := hs.table.silent (fun _ ↦ ⟨fun _ ↦ rfl, id⟩) fun _ hfal ↦ hfal.elim
    log := fun y ↦ ⟨(hs.log y).nodup, (hs.log y).locked, fun v hv ↦ ((hs.log y).fits v hv).mono
      (fun _ _ _ hr ↦ hr) (subset_cons_self _ _)⟩
    keys := hs.keys
    unshared := hs.unshared
    dispatching := fun u id hd ↦ by
      by_cases hu : u = t
      · exact absurd mem_cons_self (hu ▸ hd.alive)
      · exact hs.dispatching u id (hd.of_mine (mine_gone_of_ne hu)) }
  rely u hu := .of_frame (List.suffix_cons _ _) (mine_gone_of_ne hu) rfl rfl rfl fun _ _ _ hr ↦ hr

theorem keeps_kill (hs : Sound bus w) :
    (contract bus).Keeps (· ≠ t) w (w.kill [.outbox, .work] t) := by
  -- the history comes first, so that closing the session finds its process gone
  have hgone := keeps_gone (t := t) hs
  have hidle : Idle (.gone t :: w.history) t := fun id hd ↦ hd.alive mem_cons_self
  have hout := keeps_close (x := (t, .outbox)) hgone.inv fun _ ↦ hidle
  have hwork := keeps_close (x := (t, .work)) hout.inv nofun
  refine (hgone.trans (hout.imp fun u hu heq ↦ hu ?_)).trans (hwork.imp fun u hu heq ↦ hu ?_)
  · cases heq
    rfl
  · cases heq

end Operations

end FuelGrid.Events
