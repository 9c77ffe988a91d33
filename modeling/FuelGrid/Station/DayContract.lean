import FuelGrid.Station.Effects

/-!
# A contract for operating days and their shifts

A day is closed only while it has no open shift, and locked only while it is closed and all of its
shifts are approved. Opening a shift locks the day in shared mode and looks at its status again;
closing and reopening the day locks it exclusively and looks at its shifts again.

This module states the law, the contract between the requests and what their commits do to days and
shifts; the requests are executed under it in `DayLock`.
-/

namespace FuelGrid.Station

open Sql Forecourt

variable {env : StationEnv} {l : Local (schema env)}

def NoneOpen (db : StationDb) (day : Uuid) : Prop :=
  ∀ s ∈ shiftsOfDay db day, s.status ≠ .opened
  deriving Decidable

def AllApproved (db : StationDb) (day : Uuid) : Prop :=
  ∀ s ∈ shiftsOfDay db day, s.status = .approved
  deriving Decidable

/-- A day that is not open has no open shift, and a locked one has only approved shifts. -/
def DayLaw (db : StationDb) : Prop :=
  ∀ d ∈ db.days, (d.status ≠ .opened → NoneOpen db d.id) ∧
  (d.status = .locked → AllApproved db d.id)
  deriving Decidable

/-- The days stay the same ones, and a locked day stays locked. -/
structure LocksKept (db db' : StationDb) : Prop where
  ids : db'.days.map (·.id) = db.days.map (·.id)
  locked : ∀ d ∈ db.days, d.status = .locked → ∀ d' ∈ db'.days, d'.id = d.id → d'.status = .locked

theorem LocksKept.refl {db db' : StationDb} (hks : (db.days.map (·.id)).Nodup)
    (h : db'.days = db.days) : LocksKept db db' where
  ids := by rw [h]
  locked d hd hlck d' hd' hid := by
    rw [h] at hd'
    rw [inj_on_of_nodup_map hks hd' hd hid]
    exact hlck

theorem LocksKept.trans {db1 db2 db3 : StationDb} (h : LocksKept db1 db2)
    (h' : LocksKept db2 db3) : LocksKept db1 db3 where
  ids := h'.ids.trans h.ids
  locked d hd hlck d' hd' hid := by
    have hmem : d.id ∈ db2.days.map (·.id) := h.ids ▸ mem_map_of_mem hd
    obtain ⟨d2, hd2, hid2⟩ := mem_map.mp hmem
    have hlck2 := h.locked d hd hlck d2 hd2 hid2
    exact h'.locked d2 hd2 hlck2 d' hd' (hid.trans hid2.symm)

/-! ## The race

Locking a day takes no such lock: `handleLockOperatingDay` checks status and shifts on the pool, and
its transaction updates the row whatever it has become. A day that is reopened in between can get a
new shift, and is locked with that shift open (`Overtakes`). -/

def Op.reopens : Op → Option Uuid
  | .updateDay _ day .opened _ => some day
  | _ => none

def Op.locksDay : Op → Option Uuid
  | .lockDay _ day _ => some day
  | _ => none

def Op.OfDay : Op → Prop
  | .forecourt (.close ..) _ | .openShift .. | .approveShift .. | .updateDay .. | .lockDay .. =>
    True
  | _ => False

/-- The lock of the day has read its status. -/
def Started (l : Local (schema env)) : Bool :=
  match l.prog with
  | .query (.getDay _) _ | .rollback _ => false
  | _ => true

/-- A reopening commits over a lock of the same day. -/
def Overtakes (op op' : Op) (l : Local (schema env)) : Prop :=
  ∃ day ∈ op.reopens, op'.locksDay = some day ∧ Started l
  deriving Decidable

/-- The condition on a run: no reopening overtakes a lock of the same day. -/
def NoReopening {T : Type} (ops : T → Op) (s : State (schema env) T) (a : Act T) : Prop :=
  s.ApartBy (fun t u ↦ Overtakes (ops t) (ops u)) a

instance {T : Type} [DecidableEq T] [Fintype T] (ops : T → Op) (s : State (schema env) T)
    (a : Act T) : Decidable (NoReopening ops s a) :=
  inferInstanceAs (Decidable (s.ApartBy _ a))

/-! ## The contract

The locks of a transaction keep their rows; the lock of a day that has begun keeps the day shut and
its shifts approved. -/

def DayShut (db : StationDb) (day : Uuid) : Prop :=
  ∀ d ∈ db.days, d.id = day → d.status ≠ .opened

def Write.shiftIds : Write → List Uuid
  | .forecourt (.insertShift s) => [s.id]
  | .setDayOf shift _ => [shift]
  | _ => []

def Fresh (db : StationDb) (k : Uuid) : Prop :=
  (∀ s ∈ db.forecourt.shifts, s.id ≠ k) ∧ ∀ p ∈ db.dayOf, p.1 ≠ k

/-- What a transaction relies on. -/
structure DayRely (op : Op) (l : Local (schema env)) (db db' : StationDb) : Prop where
  day : ∀ id, .day id ∈ l.held ∨ .dayShare id ∈ l.held →
    db'.days.find? (·.id = id) = db.days.find? (·.id = id)
  shift : ∀ id s, .forecourt (.shift id) ∈ l.held → db.forecourt.shifts.find? (·.id = id) = some s →
    db'.forecourt.shifts.find? (·.id = id) = some s
  noneOpen : ∀ id, .day id ∈ l.held → NoneOpen db id → NoneOpen db' id
  fresh : ∀ w ∈ l.log, ∀ k ∈ w.shiftIds, Fresh db k → Fresh db' k
  shut : ∀ id, op.locksDay = some id → Started l → DayShut db id → DayShut db' id
  approved : ∀ id, op.locksDay = some id → Started l → DayShut db id → AllApproved db id →
    AllApproved db' id

/-- What a transaction promises about its commit. -/
structure DayGuar (op : Op) (held : Set LockKey) (log : List Write) (db db' : StationDb) :
    Prop where
  day : ∀ id, .day id ∉ held → db'.days.find? (·.id = id) = db.days.find? (·.id = id)
  shift : ∀ id s, .forecourt (.shift id) ∉ held → db.forecourt.shifts.find? (·.id = id) = some s →
    db'.forecourt.shifts.find? (·.id = id) = some s
  noneOpen : ∀ id, .dayShare id ∉ held → NoneOpen db id → NoneOpen db' id
  fresh : ∀ k, (∀ w ∈ log, k ∉ w.shiftIds) → Fresh db k → Fresh db' k
  shut : ∀ id, op.reopens ≠ some id → DayShut db id → DayShut db' id
  approved : ∀ id, DayShut db id → AllApproved db id → AllApproved db' id

/-- The keys hold, ids are drawn, and days and shifts obey the law. -/
structure DayInv (db : StationDb) (n : ℕ) : Prop where
  days : (db.days.map (·.id)).Nodup
  shifts : (db.forecourt.shifts.map (·.id)).Nodup
  drawn : ∀ k, n ≤ k → Fresh db k
  law : DayLaw db

theorem DayInv.tick {db : StationDb} {n : ℕ} (h : DayInv db n) : DayInv db (n + 1) :=
  { h with drawn := fun k hk ↦ h.drawn k (Nat.le_of_succ_le hk) }

theorem DayRely.trans {op : Op} {db1 db2 db3 : StationDb} (h : DayRely op l db1 db2)
    (h' : DayRely op l db2 db3) : DayRely op l db1 db3 where
  day id hhd := (h'.day id hhd).trans (h.day id hhd)
  shift id s hhd hs := h'.shift id s hhd (h.shift id s hhd hs)
  noneOpen id hhd hopen := h'.noneOpen id hhd (h.noneOpen id hhd hopen)
  fresh w hw k hk hfr := h'.fresh w hw k hk (h.fresh w hw k hk hfr)
  shut id hop hstd hsh := h'.shut id hop hstd (h.shut id hop hstd hsh)
  approved id hop hstd hsh happ :=
    h'.approved id hop hstd (h.shut id hop hstd hsh)
      (h.approved id hop hstd hsh happ)

variable (env) in
/-- The terms between the requests on days and shifts. -/
def dayContract (op : Op) : Contract (schema env) where
  inv := DayInv
  rely := DayRely op
  cond _ _ _ := True
  guar l db _ := DayGuar op l.held l.log db (replay (S := schema env) db l.log)
  post _ db log := LocksKept db (replay (S := schema env) db log)
  inv_tick := .tick
  rely_refl _ _ := ⟨fun _ _ ↦ rfl, fun _ _ _ h ↦ h, fun _ _ h ↦ h, fun _ _ _ _ h ↦ h,
    fun _ _ _ h ↦ h, fun _ _ _ _ h ↦ h⟩
  rely_trans := .trans

theorem drawsStamp_shiftIds : DrawsStamp (S := schema env) Write.shiftIds := by
  intro q committed view n w hw i hi
  have hgen := generated_of_exec hw
  rcases w with w | _ | ⟨shift, day⟩ | _ | _ | _ | _ | _ | _
  · cases w with
    | insertShift s =>
      rw [mem_singleton.mp hi]
      exact hgen
    | insertReading | supersede | insertVerification | setVerification | insertLine | setLine
    | setShift | setFixtures => cases hi
  · cases hi
  · rw [mem_singleton.mp hi]
    exact hgen
  all_goals cases hi

/-- A commit that overtakes nobody is one that the others rely on. -/
theorem dayContract_suits {T : Type} (ops : T → Op) :
    Contract.SuitsEach (fun t ↦ dayContract env (ops t)) DayInv
      (fun s a ↦ NoReopening ops s a ∧ s.Exclusive ∧ s.Distinct Write.shiftIds) where
  inv _ _ _ := .rfl
  cond _ _ := trivial
  compat {s t a u p} hC ht _ hguar hne hu := by
    obtain ⟨hno, hexcl, hdis⟩ := hC
    refine ⟨fun id hhd ↦ hguar.day id fun ht' ↦ ?_, fun id x hk ↦ hguar.shift id x fun hk' ↦ ?_,
      fun id hu' ↦ hguar.noneOpen id fun ht' ↦ ?_,
      fun w hw k hk ↦ hguar.fresh k fun w' hw' hk' ↦ ?_,
      fun id hop hstd ↦ hguar.shut id fun hreo ↦ ?_, fun id _ _ ↦ hguar.approved id⟩
    · rcases hhd with hhd | hhd
      · exact hne (eq_of_held rfl hhd ht')
      · exact hne (hexcl.eq_of_held rfl rfl hhd ht')
    · exact hne (eq_of_held rfl hk hk')
    · exact hne (hexcl.eq_of_held rfl rfl ht' hu').symm
    · exact hdis.apart u t hne w hw w' hw' k hk hk'
    · exact hno.not_clash ht hne hu ⟨id, hreo, hop, hstd⟩

/-! ## What the commits do

A shift moves on and never back to open (`Advanced`), one is added to an open day (`Added`), or a
day changes its status. -/

variable {day id k : Uuid} {s x : Shift}

theorem mem_shiftsOfDay {db : StationDb} :
    s ∈ shiftsOfDay db day ↔ s ∈ db.forecourt.shifts ∧ (s.id, day) ∈ db.dayOf := by
  rw [shiftsOfDay, mem_filter, decide_eq_true_eq]

section Commit

variable {op : Op} {held : Set LockKey} {log : List Write} {db db' : StationDb} {n : ℕ} {s' : Shift}
  {d : OperatingDay}

/-- The shift `s` has moved on to `s'`, and days and their shifts are the same. -/
structure Advanced (db db' : StationDb) (s s' : Shift) : Prop where
  days : db'.days = db.days
  dayOf : db'.dayOf = db.dayOf
  shifts : db'.forecourt.shifts = db.forecourt.shifts.map fun x ↦ if x.id = s'.id then s' else x
  found : db.forecourt.shifts.find? (·.id = s'.id) = some s
  notOpen : s'.status ≠ .opened
  kept : s.status = .approved → s'.status = .approved

section Advanced

variable (h : Advanced db db' s s')

include h

theorem Advanced.mem_shiftsOfDay (hx : x ∈ shiftsOfDay db' day) :
    x ∈ shiftsOfDay db day ∨ (x = s' ∧ s ∈ shiftsOfDay db day) := by
  obtain ⟨hmem, hday⟩ := Station.mem_shiftsOfDay.mp hx
  rw [h.dayOf] at hday
  rw [h.shifts] at hmem
  rcases mem_update hmem with rfl | ⟨hmem, -⟩
  · obtain ⟨hs, hid⟩ := key_of_find? h.found
    exact .inr ⟨rfl, Station.mem_shiftsOfDay.mpr ⟨hs, hid.symm ▸ hday⟩⟩
  · exact .inl (Station.mem_shiftsOfDay.mpr ⟨hmem, hday⟩)

theorem Advanced.noneOpen (hno : NoneOpen db day) : NoneOpen db' day := by
  intro x hx
  rcases h.mem_shiftsOfDay hx with hx | ⟨rfl, -⟩
  · exact hno x hx
  · exact h.notOpen

theorem Advanced.allApproved (hall : AllApproved db day) : AllApproved db' day := by
  intro x hx
  rcases h.mem_shiftsOfDay hx with hx | ⟨rfl, hs⟩
  · exact hall x hx
  · exact h.kept (hall s hs)

theorem Advanced.fresh (hfr : Fresh db k) : Fresh db' k := by
  refine ⟨fun x hx ↦ ?_, h.dayOf ▸ hfr.2⟩
  rw [h.shifts] at hx
  rcases mem_update hx with rfl | ⟨hx, -⟩
  · obtain ⟨hs, hid⟩ := key_of_find? h.found
    exact hid ▸ hfr.1 s hs
  · exact hfr.1 x hx

theorem Advanced.dayGuar (hhd : .forecourt (.shift s'.id) ∈ held) :
    DayGuar op held log db db' where
  day id _ := by rw [h.days]
  shift id x hfr hx := by
    have hne : id ≠ s'.id := by
      rintro rfl
      exact hfr hhd
    rw [h.shifts, find?_update_of_ne hne]
    exact hx
  noneOpen _ _ := h.noneOpen
  fresh _ _ := h.fresh
  shut id _ hsh := by rwa [DayShut, h.days]
  approved _ _ := h.allApproved

theorem Advanced.dayInv (hinv : DayInv db n) : DayInv db' n where
  days := h.days ▸ hinv.days
  shifts := h.shifts ▸ nodup_key_update hinv.shifts s'
  drawn k hk := h.fresh (hinv.drawn k hk)
  law d hd := by
    obtain ⟨hop, hlck⟩ := hinv.law d (h.days ▸ hd)
    exact ⟨fun hst ↦ h.noneOpen (hop hst), fun hst ↦ h.allApproved (hlck hst)⟩

end Advanced

theorem dayGuar_setDay (hhd : .day d.id ∈ held)
    (hopen : d.status = .opened → op.reopens = some d.id) :
    DayGuar op held log db (db.apply (.setDay d)) where
  day id hfr := by
    have hne : id ≠ d.id := by
      rintro rfl
      exact hfr hhd
    exact find?_update_of_ne hne
  shift _ _ _ hs := hs
  noneOpen _ _ h := h
  fresh _ _ h := h
  shut id hop hsh x hx hid := by
    rcases mem_update hx with rfl | ⟨hx, -⟩
    · exact fun hst ↦ hop (hid ▸ hopen hst)
    · exact hsh x hx hid
  approved _ _ h := h

/-- A day may be shut if it has no open shift, and locked if all of them are approved. -/
theorem DayInv.setDay (h : DayInv db n) (hsh : d.status ≠ .opened → NoneOpen db d.id)
    (hlck : d.status = .locked → AllApproved db d.id) : DayInv (db.apply (.setDay d)) n where
  days := nodup_key_update h.days d
  shifts := h.shifts
  drawn := h.drawn
  law x hx := by
    rcases mem_update hx with rfl | ⟨hx, -⟩
    · exact ⟨hsh, hlck⟩
    · exact h.law x hx

theorem locksKept_setDay (hks : (db.days.map (·.id)).Nodup)
    (hkt : ∀ x ∈ db.days, x.id = d.id → x.status = .locked → d.status = .locked) :
    LocksKept db (db.apply (.setDay d)) where
  ids := map_key_update _ _
  locked x hx hst x' hx' hid := by
    rcases mem_update hx' with rfl | ⟨hx', -⟩
    · exact hkt x hx hid.symm hst
    · rw [inj_on_of_nodup_map hks hx' hx hid]
      exact hst

/-- The shift `s` has been added to the open day `day`. -/
structure Added (db db' : StationDb) (s : Shift) (day : Uuid) : Prop where
  days : db'.days = db.days
  dayOf : db'.dayOf = db.dayOf ++ [(s.id, day)]
  shifts : db'.forecourt.shifts = db.forecourt.shifts ++ [s]
  fresh : Fresh db s.id
  opened : ∃ d ∈ db.days, d.id = day ∧ d.status = .opened

section Added

variable (h : Added db db' s day)

include h

theorem Added.mem_shiftsOfDay (hne : id ≠ day) (hx : x ∈ shiftsOfDay db' id) :
    x ∈ shiftsOfDay db id := by
  obtain ⟨hmem, hday⟩ := Station.mem_shiftsOfDay.mp hx
  rw [h.dayOf] at hday
  rw [h.shifts] at hmem
  rcases mem_append.mp hday with hday | hday
  · rcases mem_append.mp hmem with hmem | hmem
    · exact Station.mem_shiftsOfDay.mpr ⟨hmem, hday⟩
    · rw [mem_singleton.mp hmem] at hday
      exact absurd rfl (h.fresh.2 _ hday)
  · exact absurd (Prod.mk.inj (mem_singleton.mp hday)).2 hne

theorem Added.ne_of_dayShut (hsh : DayShut db id) : id ≠ day := by
  rintro rfl
  obtain ⟨d, hd, hid, hop⟩ := h.opened
  exact hsh d hd hid hop

theorem Added.fresh_of_ne (hne : s.id ≠ k) (hfr : Fresh db k) : Fresh db' k := by
  refine ⟨fun x hx ↦ ?_, fun p hp ↦ ?_⟩
  · rw [h.shifts] at hx
    rcases mem_append.mp hx with hx | hx
    · exact hfr.1 x hx
    · rwa [mem_singleton.mp hx]
  · rw [h.dayOf] at hp
    rcases mem_append.mp hp with hp | hp
    · exact hfr.2 p hp
    · rwa [mem_singleton.mp hp]

theorem Added.dayGuar (hhd : .dayShare day ∈ held) (hlog : ∃ w ∈ log, s.id ∈ w.shiftIds) :
    DayGuar op held log db db' where
  day id _ := by rw [h.days]
  shift id x _ hx := by
    rw [h.shifts, List.find?_append, hx]
    rfl
  noneOpen id hfree hno x hx := by
    refine hno x (h.mem_shiftsOfDay ?_ hx)
    rintro rfl
    exact hfree hhd
  fresh k hk hfr := by
    refine h.fresh_of_ne ?_ hfr
    rintro rfl
    obtain ⟨w, hw, hid⟩ := hlog
    exact hk w hw hid
  shut id _ hsh := by rwa [DayShut, h.days]
  approved id hsh hall x hx := hall x (h.mem_shiftsOfDay (h.ne_of_dayShut hsh) hx)

theorem Added.dayInv (hinv : DayInv db n) (hn : s.id < n) : DayInv db' n where
  days := h.days ▸ hinv.days
  shifts := by
    rw [h.shifts]
    exact nodup_key_snoc hinv.shifts h.fresh.1
  drawn k hk := h.fresh_of_ne (hn.trans_le hk).ne (hinv.drawn k hk)
  law d hd := by
    rw [h.days] at hd
    obtain ⟨hop, hlck⟩ := hinv.law d hd
    have hne : d.status ≠ .opened → d.id ≠ day := fun hst ↦ h.ne_of_dayShut fun x hx hid ↦ by
      rwa [inj_on_of_nodup_map hinv.days hx hd hid]
    refine ⟨fun hst x hx ↦ hop hst x (h.mem_shiftsOfDay (hne hst) hx),
      fun hst x hx ↦ hlck hst x (h.mem_shiftsOfDay (hne ?_) hx)⟩
    rw [hst]
    nofun

end Added

end Commit

end FuelGrid.Station
