import FuelGrid.Forecourt.CloseLines

/-!
# Verdicts on closing readings

A closing reading has at most one verification, and a verdict can be replaced as long as it is a
hold.
-/

namespace FuelGrid.Forecourt

open Sql

/-! ## Rows by key

`settledClosing` is the figure that a closing stands for. Only a correction makes it differ from
what the attendant submitted. -/

def verdictOf (db : ShiftDb) (reading : Uuid) : Option Verification :=
  db.verifications.find? (·.readingId = reading)

/-- The closing that counts: the verified figure once the verdict is final, the submitted one until
then. -/
def settledClosing (db : ShiftDb) (m : MeterReading) : ℤ :=
  match verdictOf db m.id with
  | some v => if v.status.Hold then m.reading else v.finalApprovedReading
  | none => m.reading

def Shut (db : ShiftDb) (shift : Uuid) : Prop :=
  ∀ s ∈ db.shifts, s.id = shift → s.status ≠ .opened

/-- The keys of the tables, and what a verification takes from its reading: only a correction has a
figure of its own. -/
structure Keys (db : ShiftDb) : Prop where
  shifts : (db.shifts.map (·.id)).Nodup
  readings : (db.readings.map (·.id)).Nodup
  unique : ∀ m ∈ db.readings, ∀ m' ∈ db.readings, ∀ {shift nozzle type},
    m.ActiveFor shift nozzle type → m'.ActiveFor shift nozzle type → m = m'
  verifications : (db.verifications.map (·.readingId)).Nodup
  verdicts : ∀ v ∈ db.verifications, ∀ m ∈ db.readings, m.id = v.readingId →
    v.shiftId = m.shiftId ∧ (v.status ≠ .corrected → v.finalApprovedReading = m.reading)

theorem active_unique {readings : List MeterReading}
    (h : ((readings.filter (·.status = .active)).map fun m ↦
      (m.shiftId, m.nozzleId, m.readingType)).Nodup) :
    ∀ m ∈ readings, ∀ m' ∈ readings, ∀ {shift nozzle type},
      m.ActiveFor shift nozzle type → m'.ActiveFor shift nozzle type → m = m' := by
  rintro m hm m' hm' shift nozzle type ⟨hsh, hnoz, hty, hact⟩
    ⟨hsh', hnoz', hty', hact'⟩
  refine inj_on_of_nodup_map h (mem_filter.mpr ⟨hm, decide_eq_true hact⟩)
    (mem_filter.mpr ⟨hm', decide_eq_true hact'⟩) ?_
  rw [hsh, hnoz, hty, hsh', hnoz', hty']

variable {m : MeterReading}

section Lookup

variable {db db' : ShiftDb} {v : Verification} {reading : Uuid}

theorem mem_of_verdictOf (h : verdictOf db reading = some v) :
    v ∈ db.verifications ∧ v.readingId = reading := key_of_find? h

theorem verdictOf_eq_none : verdictOf db reading = none ↔
    ∀ v ∈ db.verifications, v.readingId ≠ reading := find?_key_eq_none

theorem Keys.verdictOf_eq (h : Keys db) (hv : v ∈ db.verifications) :
    verdictOf db v.readingId = some v := find?_key_of_mem h.verifications hv rfl

theorem Keys.shut (h : Keys db) {s : Shift} (hs : s ∈ db.shifts) (hst : s.status ≠ .opened) :
    Shut db s.id := by
  intro s' hs' hid
  rwa [inj_on_of_nodup_map h.shifts hs' hs hid]

theorem Keys.setShift (h : Keys db) (s : Shift) : Keys (db.apply (.setShift s)) where
  shifts := nodup_key_update h.shifts s
  readings := h.readings
  unique := h.unique
  verifications := h.verifications
  verdicts := h.verdicts

/-- Until a reading is corrected, its closing is what was submitted. -/
theorem Keys.settledClosing_eq_reading (h : Keys db) (hm : m ∈ db.readings)
    (hv : ∀ v, verdictOf db m.id = some v → v.status ≠ .corrected) :
    settledClosing db m = m.reading := by
  unfold settledClosing
  rcases hfi : verdictOf db m.id with _ | v
  · rfl
  · obtain ⟨hmem, hid⟩ := mem_of_verdictOf hfi
    have hfin := (h.verdicts v hmem m hm hid.symm).2 (hv v hfi)
    dsimp only
    split
    · rfl
    · exact hfin

theorem Keys.finalReading_eq (h : Keys db) (hm : m ∈ db.readings) :
    finalReading db m = settledClosing db m := by
  change ((verdictOf db m.id).map _).getD _ = _
  unfold settledClosing
  rcases hfi : verdictOf db m.id with _ | v
  · rfl
  · obtain ⟨hmem, hid⟩ := mem_of_verdictOf hfi
    dsimp only [map_some, getD_some]
    split
    next hhold =>
      refine (h.verdicts v hmem m hm hid.symm).2 ?_
      rintro hcor
      rw [hcor] at hhold
      rcases hhold with h | h <;> cases h
    · rfl

end Lookup

theorem filter_setLine {db : ShiftDb} {l : CloseLine} {shift : Uuid} (hne : l.shiftId ≠ shift) :
    (db.apply (.setLine l)).lines.filter (·.shiftId = shift)
      = db.lines.filter (·.shiftId = shift) := by
  have hkey : (db.apply (.setLine l)).lines = db.lines.map fun x ↦
      if (x.shiftId, x.nozzleId) = (l.shiftId, l.nozzleId) then l else x := by
    simp only [ShiftDb.apply, Prod.mk.injEq]
  rw [hkey]
  refine filter_update (decide_eq_false hne) fun x _ hx ↦ ?_
  rw [(Prod.mk.inj hx).1]
  exact decide_eq_false hne

/-! ## Writes of verdicts

`Judged` is what the writes of verdicts do to the tables, in terms of the row that each reading has:
the new verdicts stand over the old ones, which were holds, and nothing else changes. -/

theorem VerificationInput.row_eq_ok {input : VerificationInput} {v : Verification}
    (h : input.row = .ok v) :
    v.readingId = input.readingId ∧ v.shiftId = input.shiftId ∧ v.status = input.status ∧
      store 14 3 input.finalApprovedReading = some v.finalApprovedReading := by
  unfold VerificationInput.row at h
  split at h
  · cases h
  next submitted verified final hfig =>
  split at h <;> try cases h
  split at h <;> try cases h
  split at h <;> cases h
  simp only [VerificationInput.figures, bind_eq_bind, bind_eq_some_iff,
    pure_def, some.injEq] at hfig
  obtain ⟨_, -, _, -, final', hfin, heq⟩ := hfig
  cases heq
  exact ⟨rfl, rfl, rfl, hfin⟩

/-- What the write of a verdict found: no verification, or a hold. -/
inductive VerdictWrite (db : ShiftDb) (v : Verification) : Write → Prop
  | insert : verdictOf db v.readingId = none → VerdictWrite db v (.insertVerification v)
  | replace {hold : Verification} : verdictOf db v.readingId = some hold → hold.status.Hold →
      VerdictWrite db v (.setVerification v)

/-- The verdicts `vs` have been written over those of `db`, and nothing else has changed. -/
structure Judged (db db' : ShiftDb) (vs : List Verification) : Prop where
  shifts : db'.shifts = db.shifts
  readings : db'.readings = db.readings
  lines : db'.lines = db.lines
  key : (db'.verifications.map (·.readingId)).Nodup
  mem : ∀ v ∈ db'.verifications, v ∈ vs ∨ v ∈ db.verifications
  other : ∀ r, (∀ v ∈ vs, v.readingId ≠ r) → verdictOf db' r = verdictOf db r
  new : ∀ v ∈ vs, verdictOf db' v.readingId = some v
  old : ∀ v ∈ vs, ∀ hold, verdictOf db v.readingId = some hold → hold.status.Hold

section Judged

variable {db db' : ShiftDb} {v : Verification} {vs : List Verification}

theorem judged_insert (h : Keys db) (hkey : (vs.map (·.readingId)).Nodup)
    (hfr : ∀ v ∈ vs, verdictOf db v.readingId = none) :
    Judged db { db with verifications := db.verifications ++ vs } vs where
  shifts := rfl
  readings := rfl
  lines := rfl
  key := nodup_key_append h.verifications hkey hfr
  mem v hv := (mem_append.mp hv).symm
  other r hr := find?_key_append _ _ hr
  new v hv := by
    have hall := nodup_key_append h.verifications hkey hfr
    exact find?_key_of_mem hall (mem_append_right _ hv) rfl
  old v hv hold hfi := by
    rw [hfr v hv] at hfi
    cases hfi

theorem VerdictWrite.judged {w : Write} (hw : VerdictWrite db v w) (h : Keys db) :
    Judged db (db.apply w) [v] := by
  rcases hw with hno | ⟨hfi, hhold⟩
  · exact judged_insert h (nodup_singleton _) fun v' hv' ↦ by rwa [mem_singleton.mp hv']
  · refine ⟨rfl, rfl, rfl, nodup_key_update h.verifications v, fun v' hv' ↦ ?_, fun r hr ↦ ?_,
      fun v' hv' ↦ ?_, fun v' hv' hold hfi' ↦ ?_⟩
    · rcases mem_update hv' with rfl | ⟨hv', -⟩
      · exact .inl mem_cons_self
      · exact .inr hv'
    · exact find?_update_of_ne (hr v mem_cons_self).symm
    · rw [mem_singleton.mp hv']
      exact find?_update_self hfi
    · rw [mem_singleton.mp hv', hfi] at hfi'
      cases hfi'
      exact hhold

/-- A verdict that keeps to its reading: it is on the reading's shift, and only a correction has a
figure of its own. -/
def Verification.Keeps (v : Verification) (db : ShiftDb) : Prop :=
  ∀ m ∈ db.readings, m.id = v.readingId →
    v.shiftId = m.shiftId ∧ (v.status ≠ .corrected → v.finalApprovedReading = m.reading)

theorem Judged.keys (hj : Judged db db' vs) (h : Keys db) (hvs : ∀ v ∈ vs, v.Keeps db) :
    Keys db' where
  shifts := hj.shifts ▸ h.shifts
  readings := hj.readings ▸ h.readings
  unique := hj.readings ▸ h.unique
  verifications := hj.key
  verdicts v hv m hm hid := by
    rw [hj.readings] at hm
    rcases hj.mem v hv with hv | hv
    · exact hvs v hv m hm hid
    · exact h.verdicts v hv m hm hid

theorem Judged.settledClosing_eq (hj : Judged db db' vs) (h : Keys db)
    (hvs : ∀ v ∈ vs, v.Keeps db) (hm : m ∈ db.readings)
    (hm' : ∀ v ∈ vs, v.readingId = m.id → v.status ≠ .corrected) :
    settledClosing db' m = settledClosing db m := by
  by_cases hnew : ∀ v ∈ vs, v.readingId ≠ m.id
  · rw [settledClosing, hj.other m.id hnew, settledClosing]
  · obtain ⟨v, hv, hid⟩ : ∃ v ∈ vs, v.readingId = m.id := by simpa using hnew
    have haft : settledClosing db' m = m.reading := by
      refine (hj.keys h hvs).settledClosing_eq_reading (hj.readings ▸ hm) fun v' hv' ↦ ?_
      rw [← hid, hj.new v hv] at hv'
      cases hv'
      exact hm' v hv hid
    have hbef : settledClosing db m = m.reading := by
      refine h.settledClosing_eq_reading hm fun hold hfi hcor ↦ ?_
      have hhold := hj.old v hv hold (hid ▸ hfi)
      rw [hcor] at hhold
      rcases hhold with h | h <;> cases h
    rw [haft, hbef]

end Judged

end FuelGrid.Forecourt
