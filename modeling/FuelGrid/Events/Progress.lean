import FuelGrid.Events.Outbox

/-!
# The outbox and its history

What the rows of the outbox say about what has happened.
-/

namespace FuelGrid.Events

open Sql Concurrent

/-! ## History -/

/-- The state that the processes of the application share. -/
abbrev AppWorld (H : Schema) (env : Env) (T : Type) := World (schema H env) T Conn (Note H)

/-- What is observed of it. -/
abbrev AppEntry (H : Schema) (env : Env) (T : Type) := Entry (schema H env) T Conn (Note H)

variable {H : Schema} {env : Env} {T : Type} {bus : Bus H} {h h' : List (AppEntry H env T)} {t : T}
  {id : Uuid} {e : Event} {n : AppEntry H env T} {rows : List OutboxRow} {db : EventsDb H}
  {v : Write H} {r : OutboxRow} {log : List (Write H)} {x : T × Conn}

/-- The entry is the committed mark that the event is published. -/
def Publishes (id : Uuid) : AppEntry H env T → Prop
  | .wrote _ (.setPublished id' _) => id' = id
  | _ => False

instance (id : Uuid) : (n : AppEntry H env T) → Decidable (Publishes id n)
  | .wrote _ (.setPublished id' _) => inferInstanceAs (Decidable (id' = id))
  | .wrote _ (.setFailure _ _ _) | .wrote _ (.setRequeued _) | .wrote _ (.pruneJobRuns _)
  | .wrote _ (.insertEvent _) | .wrote _ (.work _) | .note _ _ | .gone _ =>
    inferInstanceAs (Decidable False)

def Dispatches (id : Uuid) : AppEntry H env T → Prop
  | .note _ (.dispatch id' _ _) => id' = id
  | .note _ (.returned id' _ _) => id' = id
  | _ => False

instance (id : Uuid) : (n : AppEntry H env T) → Decidable (Dispatches id n)
  | .note _ (.dispatch id' _ _) | .note _ (.returned id' _ _) =>
    inferInstanceAs (Decidable (id' = id))
  | .wrote _ _ | .gone _ => inferInstanceAs (Decidable False)

/-- The failures of the event that were recorded since it was inserted or last requeued. -/
def failuresSince (id : Uuid) : List (AppEntry H env T) → ℕ
  | [] => 0
  | .wrote _ (.setFailure id' _ _) :: h =>
    if id' = id then failuresSince id h + 1 else failuresSince id h
  | .wrote _ (.setRequeued id') :: h => if id' = id then 0 else failuresSince id h
  | _ :: h => failuresSince id h

/-- Some dispatch of the event by process `t` is over and all of the handlers have returned
`nil`. -/
def Delivered (bus : Bus H) (h : List (AppEntry H env T)) (t : T) (id : Uuid) (e : Event) : Prop :=
  ∃ results, .note t (.returned id e results) ∈ h ∧
    results.length = (bus.matching e.type).length ∧ ∀ err ∈ results, err = none

theorem Delivered.mono (hd : Delivered bus h t id e) (hsub : h ⊆ h') : Delivered bus h' t id e := by
  obtain ⟨results, hmem, hres⟩ := hd
  exact ⟨results, hsub hmem, hres⟩

/-! ## Rows

A row counts the failures that were recorded since it was inserted or last requeued, it is parked
exactly when their number has reached `maxOutboxAttempts`, and it is published only after a dispatch
in which no handler failed (`RowSound`). -/

/-- What a row says about the history. -/
structure RowSound (bus : Bus H) (h : List (AppEntry H env T)) (id : Uuid) (r : OutboxRow) :
    Prop where
  attempts : r.attemptCount = failuresSince id h
  parked : r.failedAt.isSome → r.attemptCount = maxOutboxAttempts
  budget : r.failedAt = none → r.attemptCount < maxOutboxAttempts
  published : r.publishedAt.isSome → r.failedAt = none ∧ ∃ t, Delivered bus h t id r.event
  unpublished : r.publishedAt = none → ∀ n ∈ h, ¬Publishes id n

/-- The rows of the outbox agree with the history, in which no event is dispatched once it is
published. -/
structure TableSound (bus : Bus H) (rows : List OutboxRow) (h : List (AppEntry H env T)) :
    Prop where
  row : ∀ id r, rows[id]? = some r → RowSound bus h id r
  absent : ∀ id, rows[id]? = none → failuresSince id h = 0 ∧ ∀ n ∈ h, ¬Publishes id n
  quiet : h.Pairwise fun later earlier ↦ ∀ id, Publishes id earlier → ¬Dispatches id later

theorem TableSound.nil (bus : Bus H) : TableSound bus [] ([] : List (AppEntry H env T)) where
  row := nofun
  absent _ _ := ⟨rfl, nofun⟩
  quiet := .nil

/-- An entry that says nothing about the progress of an event. -/
structure Silent (id : Uuid) (n : AppEntry H env T) : Prop where
  failures : ∀ h, failuresSince id (n :: h) = failuresSince id h
  publishes : ¬Publishes id n

theorem RowSound.silent {r : OutboxRow} (hr : RowSound bus h id r) (hn : Silent id n) :
    RowSound bus (n :: h) id r where
  attempts := hr.attempts.trans (hn.failures h).symm
  parked := hr.parked
  budget := hr.budget
  published hp := by
    obtain ⟨hno, t, hd⟩ := hr.published hp
    exact ⟨hno, t, hd.mono (subset_cons_self n h)⟩
  unpublished hp := forall_mem_cons.mpr ⟨hn.publishes, hr.unpublished hp⟩

/-- An entry about no row, or about the dispatch of one that is not published, keeps the table
sound. -/
theorem TableSound.silent (hs : TableSound bus rows h) (hn : ∀ id, Silent id n)
    (hdip : ∀ id, Dispatches id n → ∃ r, rows[id]? = some r ∧ r.publishedAt = none) :
    TableSound bus rows (n :: h) where
  row id r hr := (hs.row id r hr).silent (hn id)
  absent id hno := by
    obtain ⟨hfai, hpul⟩ := hs.absent id hno
    exact ⟨((hn id).failures h).trans hfai,
      forall_mem_cons.mpr ⟨(hn id).publishes, hpul⟩⟩
  quiet := by
    refine List.pairwise_cons.mpr ⟨fun m hm id hpub hdis ↦ ?_, hs.quiet⟩
    obtain ⟨r, hr, hno⟩ := hdip id hdis
    exact (hs.row id r hr).unpublished hno m hm hpub

/-! ## Changes

A commit applies the changes of its transaction one after the other. Each of them fits the row it is
about (`Fits`), and no two are about the same row, so the rows stay sound through the whole log
(`TableSound.replay`). -/

/-- The row that a change is about. -/
def Write.target : Write H → Option Uuid
  | .setPublished id _ => some id
  | .setFailure id _ _ => some id
  | .setRequeued id => some id
  | .pruneJobRuns _ => none
  | .insertEvent _ => none
  | .work _ => none

/-- The change is one that process `t` can make to the row it is about. -/
def Fits (bus : Bus H) (rows : List OutboxRow) (h : List (AppEntry H env T)) (t : T) :
    Write H → Prop
  | .setPublished id _ => ∃ r, rows[id]? = some r ∧ r.Pending ∧ Delivered bus h t id r.event
  | .setFailure id n failedAt => ∃ r, rows[id]? = some r ∧ r.Pending ∧ n = r.attemptCount + 1 ∧
      (failedAt.isSome ↔ maxOutboxAttempts ≤ n)
  | .setRequeued id => ∃ r, rows[id]? = some r ∧ r.publishedAt = none ∧ r.failedAt.isSome
  | .pruneJobRuns _ => True
  | .insertEvent _ => True
  | .work _ => True

private theorem getElem?_apply_of_ne (hne : v.target ≠ some id) (hr : db.outbox[id]? = some r) :
    (db.apply v).outbox[id]? = some r := by
  cases v with
  | setPublished id' now =>
    have hid : id' ≠ id := fun heq ↦ hne (congrArg some heq)
    simp [EventsDb.apply, hid, hr]
  | setFailure id' n failedAt =>
    have hid : id' ≠ id := fun heq ↦ hne (congrArg some heq)
    simp [EventsDb.apply, hid, hr]
  | setRequeued id' =>
    have hid : id' ≠ id := fun heq ↦ hne (congrArg some heq)
    simp [EventsDb.apply, hid, hr]
  | insertEvent e =>
    obtain ⟨hlt, -⟩ := List.getElem?_eq_some_iff.mp hr
    exact (List.getElem?_append_left hlt).trans hr
  | pruneJobRuns cutoff => exact hr
  | work w => exact hr

theorem getElem?_of_apply (hne : v.target ≠ some id) (hr : (db.apply v).outbox[id]? = some r) :
    db.outbox[id]? = some r ∨ (db.outbox[id]? = none ∧ ∃ e, r = ⟨e, none, 0, none⟩) := by
  rcases hold : db.outbox[id]? with _ | r'
  · right
    refine ⟨rfl, ?_⟩
    cases v with
    | insertEvent e =>
      rw [EventsDb.apply, List.getElem?_append_right (List.getElem?_eq_none_iff.mp hold)] at hr
      exact ⟨e, (mem_singleton.mp (List.mem_of_getElem? hr))⟩
    | setPublished id' now => simp [EventsDb.apply, getElem?_modify, hold] at hr
    | setFailure id' n failedAt => simp [EventsDb.apply, getElem?_modify, hold] at hr
    | setRequeued id' => simp [EventsDb.apply, getElem?_modify, hold] at hr
    | pruneJobRuns cutoff =>
      rw [EventsDb.apply, hold] at hr
      cases hr
    | work w =>
      rw [EventsDb.apply, hold] at hr
      cases hr
  · left
    rw [getElem?_apply_of_ne hne hold] at hr
    exact hr

private theorem silent_wrote (hne : v.target ≠ some id) :
    Silent id (.wrote x v : AppEntry H env T) := by
  cases v with
  | setPublished id' now => exact ⟨fun _ ↦ rfl, fun heq ↦ hne (congrArg some heq)⟩
  | setFailure id' n failedAt =>
    exact ⟨fun _ ↦ if_neg fun heq ↦ hne (congrArg some heq), fun hfal ↦ hfal⟩
  | setRequeued id' =>
    exact ⟨fun _ ↦ if_neg fun heq ↦ hne (congrArg some heq), fun hfal ↦ hfal⟩
  | insertEvent e => exact ⟨fun _ ↦ rfl, fun hfal ↦ hfal⟩
  | pruneJobRuns cutoff => exact ⟨fun _ ↦ rfl, fun hfal ↦ hfal⟩
  | work w => exact ⟨fun _ ↦ rfl, fun hfal ↦ hfal⟩

theorem Fits.row (hv : Fits bus rows h t v) (hid : v.target = some id) :
    ∃ r, rows[id]? = some r := by
  cases v <;> cases hid <;> exact hv.imp fun _ ↦ And.left

/-- What fits still does when its row is the same and more has happened. -/
theorem Fits.mono {rows' : List OutboxRow} (hv : Fits bus rows h t v)
    (hrs : ∀ id r, v.target = some id → rows[id]? = some r → rows'[id]? = some r) (hsub : h ⊆ h') :
    Fits bus rows' h' t v := by
  cases v with
  | setPublished id' now =>
    obtain ⟨r, hr, hpnd, hd⟩ := hv
    exact ⟨r, hrs id' r rfl hr, hpnd, hd.mono hsub⟩
  | setFailure id' k failedAt =>
    obtain ⟨r, hr, hrow⟩ := hv
    exact ⟨r, hrs id' r rfl hr, hrow⟩
  | setRequeued id' =>
    obtain ⟨r, hr, hrow⟩ := hv
    exact ⟨r, hrs id' r rfl hr, hrow⟩
  | insertEvent e => trivial
  | pruneJobRuns cutoff => trivial
  | work w => trivial

private theorem RowSound.apply (hs : TableSound bus db.outbox h) (hv : Fits bus db.outbox h t v)
    (hid : v.target = some id) (hr : (db.apply v).outbox[id]? = some r) :
    RowSound bus (.wrote x v :: h) id r := by
  cases v with
  | setPublished id' now =>
    cases hid
    obtain ⟨r0, hr0, ⟨hunp, hfai⟩, hd⟩ := hv
    obtain rfl : r0.publish now = r := by
      simpa [EventsDb.apply, getElem?_modify, hr0] using hr
    have hrow := hs.row _ _ hr0
    exact {
      attempts := hrow.attempts
      parked := hrow.parked
      budget := hrow.budget
      published := fun _ ↦ ⟨hfai, t, hd.mono (subset_cons_self _ h)⟩
      unpublished := nofun }
  | setFailure id' n failedAt =>
    cases hid
    obtain ⟨r0, hr0, ⟨hunp, hfai⟩, rfl, hdead⟩ := hv
    obtain rfl : r0.fail (r0.attemptCount + 1) failedAt = r := by
      simpa [EventsDb.apply, getElem?_modify, hr0] using hr
    have hrow := hs.row _ _ hr0
    have hlt : r0.attemptCount < maxOutboxAttempts := hrow.budget hfai
    refine {
      attempts := ?_
      parked := fun hsm ↦ le_antisymm hlt (hdead.mp hsm)
      budget := fun hno ↦ lt_of_not_ge fun hge ↦ ?_
      published := fun hpub ↦ ?_
      unpublished := fun _ ↦ forall_mem_cons.mpr ⟨fun hfal ↦ hfal, hrow.unpublished hunp⟩ }
    · exact (congrArg (· + 1) hrow.attempts).trans (if_pos rfl).symm
    · have hsm := hdead.mpr hge
      have hno : failedAt = none := hno
      rw [hno] at hsm
      cases hsm
    · have hpub : r0.publishedAt.isSome := hpub
      rw [hunp] at hpub
      cases hpub
  | setRequeued id' =>
    cases hid
    obtain ⟨r0, hr0, hunp, -⟩ := hv
    obtain rfl : r0.requeue = r := by
      simpa [EventsDb.apply, getElem?_modify, hr0] using hr
    have hrow := hs.row _ _ hr0
    refine {
      attempts := (if_pos rfl).symm
      parked := nofun
      budget := fun _ ↦ Nat.zero_lt_succ 9
      published := fun hpub ↦ ?_
      unpublished := fun _ ↦ forall_mem_cons.mpr ⟨fun hfal ↦ hfal, hrow.unpublished hunp⟩ }
    have hpub : r0.publishedAt.isSome := hpub
    rw [hunp] at hpub
    cases hpub
  | insertEvent e => cases hid
  | pruneJobRuns cutoff => cases hid
  | work w => cases hid

theorem TableSound.apply (hs : TableSound bus db.outbox h) (hv : Fits bus db.outbox h t v)
    (x : T × Conn) : TableSound bus (db.apply v).outbox (.wrote x v :: h) where
  row id r hr := by
    by_cases hid : v.target = some id
    · exact RowSound.apply hs hv hid hr
    have hsil : Silent id (.wrote x v : AppEntry H env T) := silent_wrote hid
    rcases getElem?_of_apply hid hr with hr | ⟨hno, e, rfl⟩
    · exact (hs.row id r hr).silent hsil
    · obtain ⟨hfai, hpub⟩ := hs.absent id hno
      exact {
        attempts := ((hsil.failures h).trans hfai).symm
        parked := nofun
        budget := fun _ ↦ Nat.zero_lt_succ 9
        published := nofun
        unpublished := fun _ ↦ forall_mem_cons.mpr ⟨hsil.publishes, hpub⟩ }
  absent id hno := by
    have hold : db.outbox[id]? = none := by
      rcases hold : db.outbox[id]? with _ | r
      · rfl
      by_cases hid : v.target = some id
      · cases v <;> cases hid <;> simp [EventsDb.apply, hold] at hno
      · rw [getElem?_apply_of_ne hid hold] at hno
        cases hno
    have hid : v.target ≠ some id := fun hid ↦ by
      obtain ⟨r, hr⟩ := hv.row hid
      rw [hold] at hr
      cases hr
    have hsil : Silent id (.wrote x v : AppEntry H env T) := silent_wrote hid
    obtain ⟨hfai, hpub⟩ := hs.absent id hold
    exact ⟨(hsil.failures h).trans hfai,
      forall_mem_cons.mpr ⟨hsil.publishes, hpub⟩⟩
  quiet := List.pairwise_cons.mpr ⟨fun _ _ _ _ hfal ↦ hfal, hs.quiet⟩

/-- A log whose changes fit and are about different rows keeps the table sound. -/
theorem TableSound.replay (hs : TableSound bus db.outbox h)
    (hnd : (log.filterMap Write.target).Nodup) (hfits : ∀ v ∈ log, Fits bus db.outbox h t v)
    (x : T × Conn) : TableSound bus (replay (S := schema H env) db log).outbox
      (log.reverse.map (Entry.wrote (S := schema H env) x) ++ h) := by
  induction log generalizing db h with
  | nil => exact hs
  | cons v log ih =>
    obtain ⟨hv, hlog⟩ := forall_mem_cons.mp hfits
    rw [replay_cons, List.reverse_cons, map_append, append_assoc]
    refine ih (hs.apply hv x) ?_ fun v' hv' ↦ (hlog v' hv').mono (fun id r hid hr ↦ ?_)
      (subset_cons_self _ h)
    · exact hnd.sublist ((List.sublist_cons_self v log).filterMap _)
    · refine getElem?_apply_of_ne (fun hid' ↦ ?_) hr
      rw [List.filterMap_cons_some hid', nodup_cons] at hnd
      exact hnd.1 (mem_filterMap.mpr ⟨v', hv', hid⟩)

theorem getElem?_replay_of_ne (hne : id ∉ log.filterMap Write.target)
    (hr : db.outbox[id]? = some r) : (replay (S := schema H env) db log).outbox[id]? = some r := by
  induction log generalizing db with
  | nil => exact hr
  | cons v log ih =>
    rw [replay_cons]
    refine ih (fun hmem ↦ hne ?_) (getElem?_apply_of_ne (fun hid ↦ hne ?_) hr)
    · exact ((List.sublist_cons_self v log).filterMap _).subset hmem
    · rw [List.filterMap_cons_some hid]
      exact mem_cons_self

end FuelGrid.Events
