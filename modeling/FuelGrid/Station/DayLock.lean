import FuelGrid.Station.DayContract
import FuelGrid.Station.ExpectedCash
import FuelGrid.Station.Safety

/-!
# Days are locked with approved shifts only

The requests on days and shifts are executed under the contract of `DayContract`.
-/

namespace FuelGrid.Station

open Sql Forecourt

variable {env : StationEnv} {shift actor : Uuid} {now : ℤ} {s : Shift}

/-! ## The close of a shift

The close of a shift is a transaction of the forecourt: it keeps a contract on the forecourt's own
tables (`closeContract`), which is a part of that of the station (`closeContract_within`). -/

section Close

variable {held : Set Forecourt.LockKey} {db : ShiftDb} {n : ℕ} {lines : List CloseLine}

def ClosesLocked (held : Set Forecourt.LockKey) (db db' : ShiftDb) : Prop :=
  ∃ s s', db.shifts.find? (·.id = s'.id) = some s ∧ s.status = .opened ∧ s'.status = .closed ∧
    .shift s'.id ∈ held ∧ db'.shifts = db.shifts.map fun x ↦ if x.id = s'.id then s' else x

/-- The terms of the close on the tables of the forecourt: a locked shift keeps its row. -/
def closeContract (env : Env) : Contract (Forecourt.schema env) where
  inv _ _ := True
  rely l db db' := ∀ id s, .shift id ∈ l.held → db.shifts.find? (·.id = id) = some s →
    db'.shifts.find? (·.id = id) = some s
  cond _ _ _ := True
  guar l db _ := ClosesLocked l.held db (replay (S := Forecourt.schema env) db l.log)
  post _ _ _ := True
  inv_tick h := h
  rely_refl _ _ _ _ _ h := h
  rely_trans h h' id s hheld hs := h' id s hheld (h id s hheld hs)

private theorem safe_gather_of_next {env : Env} {K : Contract (Forecourt.schema env)}
    {reads : CloseReads}
    {next : Gathered → Forecourt.Txn env} {assignments : List NozzleAssignment} {g : Gathered}
    (hnx : ∀ g db' n', K.Safe (next g) held [] db' n') :
    K.Safe (gather env reads shift next assignments g) held [] db n := by
  induction assignments generalizing g db n with
  | nil => exact hnx g db n
  | cons a as ih =>
    refine safe_reply rfl ?_
    rintro db1 n1 _ _ (_ | z) _
    · trivial
    · exact ih

private theorem safe_finishClose_locked {env : Env} (hhd : .shift shift ∈ held)
    (hs : db.shifts.find? (·.id = shift) = some s) (hop : s.status = .opened) :
    (closeContract env).Safe (finishClose env actor shift now lines) held (lines.map .insertLine)
      db n := by
  refine safe_query fun db1 n1 _ hr1 _ _ ws r hout ↦ ?_
  have hs1 := hr1 shift s hhd hs
  have hout : loggedUpdate .setShift (((replay (S := Forecourt.schema env) db1
    (lines.map .insertLine)).shifts.find? (·.id = shift)).map (·.close actor now)) = (ws, r) := hout
  rw [replay_insertLines] at hout
  dsimp only at hout
  rw [hs1] at hout
  cases hout
  obtain ⟨-, rfl⟩ := key_of_find? hs1
  refine safe_reply rfl ?_
  rintro db2 n2 hr2 _ (_ | expected) _
  · trivial
  intro db3 n3 _ hr3 _ _
  have hs3 := hr3 _ s hhd (hr2 _ s hhd hs1)
  refine ⟨⟨s, s.close actor now, hs3, hop, rfl, hhd, ?_⟩, trivial, trivial⟩
  dsimp only
  rw [replay_append, replay_insertLines]
  rfl

private theorem safe_insertCloseLines_locked {env : Env} {inputs : List CloseLineInput}
    (hhd : .shift shift ∈ held) (hs : db.shifts.find? (·.id = shift) = some s)
    (hop : s.status = .opened) :
    (closeContract env).Safe (insertCloseLines env (finishClose env actor shift now) inputs lines)
      held (lines.map .insertLine) db n := by
  induction inputs generalizing lines db n with
  | nil => exact safe_finishClose_locked hhd hs hop
  | cons input inputs ih =>
    refine safe_query fun db1 n1 _ hr _ _ ws r hout ↦ ?_
    have hout : logged Forecourt.Write.insertLine
        (insertCloseLine (replay (S := Forecourt.schema env) db1 (lines.map .insertLine)) input) =
        (ws, r) := hout
    rcases hins : insertCloseLine (replay (S := Forecourt.schema env) db1 (lines.map .insertLine))
      input with e | l <;> rw [hins] at hout <;> cases hout
    · trivial
    have hnx : (closeContract env).Safe
        (insertCloseLines env (finishClose env actor shift now) inputs (lines ++ [l])) held
        ((lines ++ [l]).map .insertLine) db1 (n1 + 1) := ih (hr shift s hhd hs)
    rwa [map_append] at hnx

theorem safe_handleCloseShift_locked {env : Env} :
    (closeContract env).Safe (Forecourt.handleCloseShift env actor shift now) ∅ [] db n := by
  refine Forecourt.safe_shiftForWrite fun s db1 n1 _ _ _ _ ↦ safe_reply rfl
    fun db2 n2 _ _ (assignments : List NozzleAssignment) _ ↦ ?_
  split
  · trivial
  refine safe_reply rfl fun db3 n3 _ _ (meterRows : List MeterReading) _ ↦
    safe_reply rfl fun db4 n4 _ _ (dipRows : List DipReading) _ ↦
    safe_reply rfl fun db5 n5 _ _ (finalClosing : List (Uuid × ℤ)) _ ↦
    safe_reply rfl fun db6 n6 _ _ (rolledBack : List Uuid) _ ↦
    safe_gather_of_next fun g db7 n7 ↦ ?_
  unfold closeGathered
  split
  · trivial
  intro db8 n8 _ _ _ _
  refine safe_reply rfl ?_
  rintro db9 n9 _ _ (_ | locked) hlck
  · trivial
  dsimp only
  split
  · trivial
  next hst =>
    exact safe_insertCloseLines_locked (mem_insert _ _) hlck (not_not.mp hst)

end Close

/-- What the close promises on the forecourt is what the station asks for. -/
theorem closeContract_within (op : Op) :
    Contract.Within (forecourtPart env) (closeContract env.forecourt) (dayContract env op) where
  inv _ := trivial
  rely h id s hhd hs := h.shift id s hhd hs
  cond _ := trivial
  commit {held log a db n} hinv hguar _ _ := by
    obtain ⟨s, s', hs, hop, hcl, hhd, hshs⟩ := hguar
    have hrep := (forecourtPart env).replay_write db log
    have h : Advanced db (replay (S := schema env) db (log.map (forecourtPart env).write))
        s s' := by
      rw [hrep]
      refine ⟨rfl, rfl, hshs, hs, ?_, fun happ ↦ ?_⟩
      · rw [hcl]
        nofun
      · rw [hop] at happ
        cases happ
    exact ⟨h.dayGuar hhd, h.dayInv hinv, .refl hinv.days h.days⟩

section Safe

variable {op : Op} {held : Set LockKey} {db : StationDb} {n : ℕ} {day : Uuid} {status : DayStatus}

/-! ## Approving and opening a shift -/

theorem safe_approve {status : String} :
    (dayContract env op).Safe (handleApproveShift env actor shift status) ∅ [] db n := by
  refine safe_handleApproveShift fun s db1 n1 hs1 _ ↦ ?_
  have hhd : LockKey.forecourt (.shift shift) ∈
      insert (LockKey.forecourt (.shift shift)) (∅ : Set LockKey) := mem_insert _ _
  refine safe_approvalGates fun db2 db3 db4 n4 ⟨_, hr2⟩ _ ⟨_, hr3⟩ _ ⟨_, hr4⟩ _ ↦ ?_
  have hs4 := hr4.shift _ s hhd (hr3.shift _ s hhd (hr2.shift _ s hhd hs1))
  refine safe_finishApproval (fun hr ↦ hr.shift shift s hhd) (fun hs ↦ hs) hs4
    fun db5 n5 hs5 ↦ ?_
  obtain ⟨-, rfl⟩ := key_of_find? hs5
  intro db6 n6 _ hr6 hinv6 _
  have h : Advanced db6 (db6.apply (.forecourt (.setShift (approve s)))) s (approve s) :=
    ⟨rfl, rfl, rfl, hr6.shift _ s hhd hs5, nofun, fun _ ↦ rfl⟩
  exact ⟨h.dayGuar hhd, h.dayInv hinv6, .refl hinv6.days rfl⟩

/-- A shift on its way into the table, on a day that is locked in shared mode and open. -/
structure Opening (s : Shift) (day : Uuid) (held : Set LockKey) (db : StationDb) (n : ℕ) :
    Prop where
  shared : .dayShare day ∈ held
  opened : (db.days.find? (·.id = day)).map (·.status) = some .opened
  fresh : Fresh db s.id
  drawn : s.id < n

theorem Opening.rely {users : List Uuid} {p : Txn env} {db' : StationDb} {n' : ℕ}
    (h : Opening s day held db n) (hr : DayRely op ⟨held, openLog s day users, p⟩ db db')
    (hn : n ≤ n') : Opening s day held db' n' where
  shared := h.shared
  opened := by
    rw [hr.day day (.inr h.shared)]
    exact h.opened
  fresh := hr.fresh _ mem_cons_self s.id (mem_singleton_self _) h.fresh
  drawn := h.drawn.trans_le hn

theorem Opening.added (h : Opening s day held db n) (users : List Uuid) :
    Added db (replay (S := schema env) db (openLog s day users)) s day := by
  obtain ⟨d, hd, hst⟩ := map_eq_some_iff.mp h.opened
  obtain ⟨hmem, hid⟩ := key_of_find? hd
  rw [replay_openLog]
  exact ⟨rfl, rfl, rfl, h.fresh, d, hmem, hid, hst⟩

private theorem safe_assignAttendants {users assigned : List Uuid} (h : Opening s day held db n) :
    (dayContract env op).Safe (assignAttendants env s users) held
      (openLog s day assigned) db n := by
  induction users generalizing assigned db n with
  | nil =>
    intro db1 n1 hn hr hinv _
    have h1 := h.rely hr hn
    have hadd : Added db1 (replay (S := schema env) db1 (openLog s day assigned)) s day :=
      h1.added assigned
    exact ⟨hadd.dayGuar h.shared ⟨_, mem_cons_self, mem_singleton_self _⟩,
      hadd.dayInv hinv h1.drawn, .refl hinv.days hadd.days⟩
  | cons user users ih =>
    refine safe_query fun db1 n1 hn hr _ _ ws (r : Bool) hout ↦ ?_
    have hout : (if (s.id, user) ∈ (replay (S := schema env) db1
        (openLog s day assigned)).forecourt.fixtures.attendants then ([], false)
      else ([Write.assignAttendant s.id user], true)) = (ws, r) := hout
    split at hout <;> cases hout
    · trivial
    · rw [if_pos rfl, openLog_snoc]
      exact ih (h.rely hr (hn.trans (le_succ _)))

theorem safe_handleOpenShift {station : Uuid} {day : Option Uuid} {name : String}
    {slot : Option Slot} {openedAt : ℤ} {overrideReason : String} : (dayContract env op).Safe
      (handleOpenShift env actor station day name slot openedAt overrideReason) ∅ [] db n := by
  unfold handleOpenShift
  split
  · trivial
  next day =>
  split
  · trivial
  split
  · trivial
  refine safe_reply rfl ?_
  rintro db1 n1 _ _ (_ | d) _
  · trivial
  dsimp only
  split
  · trivial
  split
  · trivial
  refine safe_reply rfl fun db2 n2 _ _ (blockers : List String) _ ↦ ?_
  split
  · trivial
  refine safe_reply rfl fun db3 n3 _ _ (team : ScheduledTeam) _ ↦ ?_
  rcases team with _ | _ | members
  · trivial
  · trivial
  dsimp only
  split
  · trivial
  intro db4 n4 _ _ _ _
  refine safe_reply rfl ?_
  rintro db5 n5 _ _ (_ | status) hday
  · trivial
  dsimp only
  split
  · trivial
  next hst =>
  obtain rfl := not_not.mp hst
  refine safe_reply rfl fun db6 n6 hr6 _ (unapproved : List Uuid) _ ↦ ?_
  have hsha : LockKey.dayShare day ∈ insert (LockKey.dayShare day) (∅ : Set LockKey) :=
    mem_insert _ _
  -- the day stays as it was seen under the lock; the id is drawn here
  have hin : (dayContract env op).Safe
      (insertShift env station day openedAt (members.filterMap id)) (insert (.dayShare day) ∅) []
      db6 (n6 + 1) := by
    refine safe_query fun db7 n7 _ hr7 hinv7 _ ws (r : Shift) hout ↦ ?_
    obtain ⟨rfl, rfl⟩ := Prod.mk.inj hout
    have hopd : (db7.days.find? (·.id = day)).map (·.status) = some .opened := by
      rw [hr7.day day (.inr hsha), hr6.day day (.inr hsha)]
      exact hday
    change (dayContract env op).Safe _ _ (openLog _ day []) _ _
    exact safe_assignAttendants ⟨hsha, hopd, hinv7.drawn _ le_rfl, lt_succ_self _⟩
  split
  · exact hin
  split
  · trivial
  · exact safe_authorizeStation hin

/-! ## The status of a day -/

theorem DayInv.eq_of_find? (h : DayInv db n) {d x : OperatingDay}
    (hd : db.days.find? (·.id = day) = some d) (hx : x ∈ db.days) (hid : x.id = day) : x = d := by
  obtain ⟨hmem, hid'⟩ := key_of_find? hd
  exact inj_on_of_nodup_map h.days hx hmem (hid.trans hid'.symm)

private theorem safe_setStatus {d : OperatingDay} (hhd : .day day ∈ held)
    (hd : db.days.find? (·.id = day) = some d) (hd' : d.status ≠ .locked)
    (hst : status ≠ .locked) (hop : status = .opened → op.reopens = some day)
    (hno : status = .closed → NoneOpen db day) :
    (dayContract env op).Safe (.query (.setStatus day status actor now) (answerDay env)) held []
      db n := by
  refine safe_query fun db1 n1 _ hr1 _ _ ws r hout ↦ ?_
  have hd1 := (hr1.day day (.inl hhd)).trans hd
  have hout : loggedUpdate .setDay
      ((db1.days.find? (·.id = day)).map (·.setStatus status actor now)) = (ws, r) := hout
  rw [hd1] at hout
  cases hout
  intro db2 n2 _ hr2 hinv2 _
  have hd2 := (hr2.day day (.inl hhd)).trans hd1
  have hno2 : status = .closed → NoneOpen db2 day := fun hcl ↦
    hr2.noneOpen day hhd (hr1.noneOpen day hhd (hno hcl))
  obtain ⟨-, rfl⟩ := key_of_find? hd
  refine ⟨dayGuar_setDay hhd hop, hinv2.setDay (fun hne ↦ hno2 ?_) fun hlck ↦ ?_,
    locksKept_setDay hinv2.days fun x hx hid hlck ↦ ?_⟩
  · rcases status with _ | _ | _
    · exact absurd rfl hne
    · rfl
    · exact absurd rfl hst
  · exact absurd hlck hst
  · rw [hinv2.eq_of_find? hd2 hx hid] at hlck
    exact absurd hlck hd'

theorem safe_handleUpdateOperatingDayStatus (hop : status = .opened → op.reopens = some day) :
    (dayContract env op).Safe (handleUpdateOperatingDayStatus env actor day status now) ∅
      [] db n := by
  unfold handleUpdateOperatingDayStatus
  split
  · trivial
  next hst =>
  refine safe_reply rfl ?_
  rintro db1 n1 _ _ (_ | before) _
  · trivial
  refine safe_authorizeStation ?_
  intro db2 n2 _ _ _ _
  refine safe_reply rfl ?_
  rintro db3 n3 _ _ (_ | d) hd
  · trivial
  have hhd : LockKey.day day ∈ insert (LockKey.day day) (∅ : Set LockKey) := mem_insert _ _
  dsimp only
  split
  · trivial
  next hd' =>
  split
  · trivial
  unfold requireNoOpenShift
  split
  · refine safe_reply rfl fun db4 n4 hr4 _ (count : ℕ) hcnt ↦ ?_
    split
    · trivial
    next hz =>
      obtain rfl : count = 0 := by omega
      exact safe_setStatus hhd ((hr4.day day (.inl hhd)).trans hd) hd' hst hop
        fun _ s hs ↦ by simpa using countP_eq_zero.mp hcnt s hs
  next hcl => exact safe_setStatus hhd hd hd' hst hop fun h ↦ absurd h hcl

/-- The lock of a day keeps what it saw on the pool, as long as nobody reopens the day. -/
theorem safe_handleLockOperatingDay (hop : op.locksDay = some day) :
    (dayContract env op).Safe (handleLockOperatingDay env actor day now) ∅ [] db n := by
  refine safe_reply rfl fun db1 n1 _ hinv1 (found : Option OperatingDay)
    hbef ↦ ?_
  rcases found with _ | before
  · trivial
  refine safe_authorizeStation ?_
  split
  · trivial
  next hcl =>
  obtain ⟨-, rfl⟩ := key_of_find? hbef
  have hsh1 : DayShut db1 before.id := fun x hx hid ↦ by
    rw [hinv1.eq_of_find? hbef hx hid, not_not.mp hcl]
    nofun
  refine safe_reply rfl fun db2 n2 hr2 _ (unapproved : ℕ) hcnt ↦ ?_
  have hsh2 := hr2.shut _ hop rfl hsh1
  dsimp only
  split
  · trivial
  next hz =>
  obtain rfl : unapproved = 0 := by omega
  have hall2 : AllApproved db2 before.id := fun s hs ↦ by
    simpa using countP_eq_zero.mp hcnt s hs
  intro db3 n3 _ hr3 _ _
  have hsh3 := hr3.shut _ hop rfl hsh2
  have hall3 := hr3.approved _ hop rfl hsh2 hall2
  refine safe_query fun db4 n4 _ hr4 _ _ ws r hout ↦ ?_
  have hsh4 := hr4.shut _ hop rfl hsh3
  have hall4 := hr4.approved _ hop rfl hsh3 hall3
  obtain ⟨-, rfl, rfl⟩ | ⟨_, hlock, rfl, rfl⟩ := loggedUpdate_eq hout
  · trivial
  obtain ⟨d, hd, rfl⟩ := map_eq_some_iff.mp hlock
  intro db5 n5 _ hr5 hinv5 _
  have hall5 := hr5.approved _ hop rfl hsh4 hall4
  have hid : d.id = before.id := (key_of_find? hd).2
  rw [← hid] at hall5
  refine ⟨dayGuar_setDay (hid ▸ mem_insert _ _) nofun,
    hinv5.setDay (fun _ s hs ↦ ?_) fun _ ↦ hall5, locksKept_setDay hinv5.days fun _ _ _ _ ↦ rfl⟩
  rw [hall5 s hs]
  nofun

theorem safe_op_day {op : Op} (hop : op.OfDay) :
    (dayContract env op).Safe (op.prog env) ∅ [] db n := by
  rcases op with ⟨op, _⟩ | _ | _ | _ | _ | _ | ⟨actor, day, status, now⟩ | _
  · cases op with
    | close actor shift now =>
      exact (Contract.Safe.lift (closeContract_within _) safe_handleCloseShift_locked :
        (dayContract env _).Safe _ ∅ (List.map (forecourtPart env).write []) db n)
    | capture | correct | verifyCorrect | approve | reject | flag | verifyShift | elsewhere =>
      exact hop.elim
  · exact safe_handleOpenShift
  · exact safe_approve
  · exact hop.elim
  · exact hop.elim
  · exact hop.elim
  · refine safe_handleUpdateOperatingDayStatus fun hst ↦ ?_
    rw [hst]
    rfl
  · exact safe_handleLockOperatingDay rfl

end Safe

/-! ## Every run

In every run in which no reopening overtakes a lock of the same day, a day that is not open has no
open shift, a locked one has only approved shifts, and it stays locked (`dayLaw_of_noReopening`).
The race leaves an open shift on a locked day (`not_dayLaw_of_reopening`). -/

/-- If no reopening overtakes a lock of the same day, then in every state reached a day that is not
open has no open shift and a locked one has only approved shifts, and in every later state the
locked days are still locked. -/
theorem dayLaw_of_noReopening (env : StationEnv) {T : Type} [DecidableEq T] {ops : T → Op}
    (hops : ∀ t, (ops t).OfDay) {db : StationDb} {n : ℕ} (hdays : (db.days.map (·.id)).Nodup)
    (hshifts : (db.forecourt.shifts.map (·.id)).Nodup) (hdrawn : ∀ k, n ≤ k → Fresh db k)
    (hlaw : DayLaw db) {s s' : State (schema env) T}
    (hreach : Reach (NoReopening ops)
      (State.init (S := schema env) db n fun t ↦ (ops t).prog env) s)
    (hlat : Reach (NoReopening ops) s s') : DayLaw s.db ∧ LocksKept s.db s'.db := by
  have hG : ∀ {s : State (schema env) T}, Reach (NoReopening ops)
      (State.init (S := schema env) db n fun t ↦ (ops t).prog env) s →
      s.Exclusive ∧ s.Distinct Write.shiftIds :=
    fun h ↦ ⟨exclusive_of_reach h, distinct_of_reach drawsStamp_shiftIds h⟩
  have hinv : DayInv db n := ⟨hdays, hshifts, hdrawn, hlaw⟩
  have hinv' : DayInv s.db s.stamp := (Contract.soundEach (dayContract_suits ops) .tick hinv
    (fun t ↦ safe_op_day (hops t)) (hreach.strengthen hG)).1
  -- without the key on the days a lock could be kept on one row of a day and lost on another
  have hkt : (s.db.days.map (·.id)).Nodup → LocksKept s.db s'.db :=
    Contract.soundEach_later
      (R := fun db db' ↦ (db.days.map OperatingDay.id).Nodup → LocksKept db db')
      (dayContract_suits ops) .tick (fun _ hks ↦ .refl hks rfl)
      (fun h h' hks ↦ (h hks).trans (h' ((h hks).ids ▸ hks))) (fun hpost _ ↦ hpost) hinv
      (fun t ↦ safe_op_day (hops t)) (hreach.strengthen hG)
      (hlat.strengthen fun h ↦ hG (hreach.trans h))
  exact ⟨hinv'.law, hkt hinv'.days⟩

def closedStation : StationDb where
  forecourt := { smallShift.1 with shifts := [⟨0, 0, .approved, 0, some 8, some 0⟩] }
  days := [⟨3, 0, 0, .closed, some 9, some 0, none, none⟩]
  dayOf := [(0, 3)]
  submissions := []
  receipts := []
  exceptions := []

def lockAndReopen : Fin 3 → Op
  | 0 => .lockDay 9 3 0
  | 1 => .updateDay 8 3 .opened 0
  | 2 => .openShift 8 0 (some 3) "evening" (some .evening) 10 ""

/-- The start of a run of the three. -/
def lockAndReopenState : State (schema openEnv) (Fin 3) :=
  State.init (S := schema openEnv) closedStation 4 fun t ↦ (lockAndReopen t).prog openEnv

/-- The day is locked, and then its reopening is refused. -/
theorem dayLaw_of_noReopening_locked :
    ∃ s s' : State (schema openEnv) (Fin 3),
      Reach (NoReopening lockAndReopen) lockAndReopenState s ∧
      Reach (NoReopening lockAndReopen) s s' ∧ s.db.days.map (·.status) = [.locked] ∧
      DayLaw s.db ∧ LocksKept s.db s'.db := by
  have hrun : ∃ s : State (schema openEnv) (Fin 3),
      Reach (NoReopening lockAndReopen) lockAndReopenState s ∧
      s.db.days.map (·.status) = [.locked] ∧
      (s.runs (NoReopening lockAndReopen) (turns [(1, 4)])).isSome :=
    exists_of_runs (turns [(0, 5)]) (by decide +kernel)
  obtain ⟨s, hrch, hlck, href⟩ := hrun
  obtain ⟨s', hs'⟩ := isSome_iff_exists.mp href
  have hops : ∀ t, (lockAndReopen t).OfDay := fun
    | 0 => trivial
    | 1 => trivial
    | 2 => trivial
  have hdr : ∀ k, 4 ≤ k → Fresh closedStation k := by
    intro k hk
    have hk : (0 : ℕ) ≠ k := (Nat.zero_lt_of_lt hk).ne
    exact ⟨fun x hx ↦ mem_singleton.mp hx ▸ hk, fun p hp ↦ mem_singleton.mp hp ▸ hk⟩
  exact ⟨s, s', hrch, .of_runs hs', hlck,
    dayLaw_of_noReopening openEnv hops (by decide) (by decide) hdr (by decide) hrch
      (.of_runs hs')⟩

/-- The lock sees a closed day with approved shifts, the day is reopened and gets a shift, and the
lock commits: the locked day has an open shift. -/
theorem not_dayLaw_of_reopening :
    DayLaw closedStation ∧ ∃ s : State (schema openEnv) (Fin 3),
      Reach (fun _ _ ↦ True) lockAndReopenState s ∧
      s.db.days.map (·.status) = [.locked] ∧
      (shiftsOfDay s.db 3).map (·.status) = [.approved, .opened] ∧ ¬DayLaw s.db :=
  ⟨by decide, exists_of_runs (turns [(0, 2), (1, 5), (2, 9), (0, 3)]) (by decide +kernel)⟩

end FuelGrid.Station
