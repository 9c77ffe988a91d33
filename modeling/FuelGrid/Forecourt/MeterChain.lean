import FuelGrid.Forecourt.CloseLines

/-!
# The chain of meter readings

A meter only moves forward: the opening of a nozzle on a shift must not lie below the final closing
of the shift before, which `ExpectedOpeningForNozzle` looks up. The capture of an opening checks
that. The correction of an opening does not, although it writes an opening just the same.

The law is about the time at which an opening was last written. `Passes` keeps the states of a run,
and the state that counts for an opening is the latest one in which it was not active yet. An
opening that is corrected only upwards of the expected one keeps the law
(`meterChain_of_correctsAbove`).
-/

namespace FuelGrid.Forecourt

open Sql

variable {env : Env}

def openings (db : ShiftDb) : List MeterReading :=
  db.readings.filter fun m ↦ m.readingType = .opening ∧ m.status = .active

/-- The reading does not lie below the expected opening that the state shows for its nozzle and
shift. -/
def MeterReading.Continues (env : Env) (m : MeterReading) (db : ShiftDb) : Prop :=
  ∀ s ∈ db.shifts.find? (·.id = m.shiftId), ∀ expected ∈ expectedOpening env db s m.nozzleId,
    expected ≤ m.reading
  deriving Decidable

/-- Every active opening continues the chain as it was when the opening was last written. -/
def MeterChain (env : Env) (passed : List (ShiftDb × ℕ)) (s : ShiftDb × ℕ) : Prop :=
  ∀ m ∈ openings s.1, ∀ before ∈ passed.find? (fun x ↦ m ∉ openings x.1),
    m.Continues env before.1
  deriving Decidable

/-- The condition on a request: an opening is corrected to a figure that is not below the expected
one. -/
def Op.CorrectsAbove (env : Env) (db : ShiftDb) : Op → Prop
  | .correct _ shift readingId reading =>
    ∀ old ∈ db.readings.find? (·.id = readingId), ∀ s ∈ db.shifts.find? (·.id = shift),
      AboveExpected env db s old.nozzleId old.readingType reading
  | _ => True

instance (env : Env) (db : ShiftDb) (op : Op) : Decidable (op.CorrectsAbove env db) :=
  match op with
  | .correct .. =>
    inferInstanceAs (Decidable (∀ old ∈ db.readings.find? _, ∀ s ∈ db.shifts.find? _, _))
  | .capture .. | .verifyCorrect .. | .approve .. | .reject .. | .flag .. | .verifyShift ..
  | .close .. | .elsewhere _ => .isTrue trivial

section Step

variable {db db' : ShiftDb} {n : ℕ} {m : MeterReading}

/-- A reading that is captured above the expected opening continues the chain. -/
theorem continues_of_capture {view : ShiftDb} {s : Shift} {input : CaptureInput}
    (h : capture view n input = .ok m) (hs : db.shifts.find? (·.id = input.shiftId) = some s)
    (habo : AboveExpected env db s input.nozzleId input.readingType input.reading)
    (hm : m ∈ openings (view.apply (.insertReading m))) : m.Continues env db := by
  obtain ⟨-, hact, -⟩ := capture_eq_ok h
  have hsd : store 14 3 input.reading = some m.reading := by
    unfold capture at h
    split at h
    · cases h
    next reading hrd =>
    split at h
    · split at h
      · cases h
      · cases h
        exact hrd
    · cases h
  have hty : m.readingType = .opening := by
    obtain ⟨-, hm⟩ := mem_filter.mp hm
    exact (of_decide_eq_true hm).1
  intro s' hs' expected hexp
  rw [hact.1, hs] at hs'
  cases hs'
  rw [hact.2.1] at hexp
  exact le_store (habo (hact.2.2.1.symm.trans hty) expected hexp) hsd

/-- An opening that is active after another reading was superseded was active before. -/
theorem mem_openings_of_supersede {id : Uuid} (hm : m ∈ openings (db.apply (.supersede id))) :
    m ∈ openings db := by
  obtain ⟨hmem, hact⟩ := mem_filter.mp hm
  obtain ⟨m', hm', rfl⟩ := mem_map.mp hmem
  split at hact
  · simp [MeterReading.supersede] at hact
  next hne =>
    rw [if_neg hne]
    exact mem_filter.mpr ⟨hm', hact⟩

private theorem mem_openings_insert {m' : MeterReading}
    (hm : m ∈ openings (db.apply (.insertReading m'))) :
    m ∈ openings db ∨ m = m' := by
  obtain ⟨hmem, hact⟩ := mem_filter.mp hm
  rcases mem_append.mp hmem with hmem | hmem
  · exact .inl (mem_filter.mpr ⟨hmem, hact⟩)
  · exact .inr (mem_singleton.mp hmem)

end Step

theorem continues_of_alone {db : ShiftDb} {n : ℕ} (op : Op) (hop : op.CorrectsAbove env db) :
    ∀ m ∈ openings ((op.prog env).alone db [] n).2.1, m ∉ openings db → m.Continues env db := by
  have hsm : ∀ {db'}, db'.readings = db.readings → ∀ m ∈ openings db', m ∉ openings db →
      m.Continues env db := by
    intro db' hrds m hm hnew
    rw [openings, hrds] at hm
    exact absurd hm hnew
  have hvd : ∀ (r : ShiftResult) db' n', OnlyVerdicts db db' → n ≤ n' →
      ∀ m ∈ openings db', m ∉ openings db → m.Continues env db :=
    fun _ _ _ h _ ↦ hsm h.readings
  let R : Except ShiftError ShiftResult × ShiftDb × ℕ → Prop := fun r ↦
    ∀ m ∈ openings r.2.1, m ∉ openings db → m.Continues env db
  change R ((op.prog env).alone db [] n)
  refine alone_of_yields (fun _ _ _ ↦ hsm rfl) ?_
  cases op with
  | capture actor shift nozzle type reading =>
    refine yields_handleCaptureMeterReading fun s m n' _ hs _ habo hm _ m' hm' hnew ↦ ?_
    obtain ⟨-, hid⟩ := key_of_find? hs
    rcases mem_openings_insert hm' with hold | rfl
    · exact absurd hold hnew
    · exact continues_of_capture hm (hid.symm ▸ hs) habo hm'
  | correct actor shift readingId reading =>
    refine yields_handleCorrectMeterReading
      fun s old m n' _ hs _ hold hsh _ hm _ m' hm' hnew ↦ ?_
    obtain ⟨-, hid⟩ := key_of_find? hs
    rcases mem_openings_insert hm' with hold' | rfl
    · exact absurd (mem_openings_of_supersede hold') hnew
    · exact continues_of_capture hm (hid.symm ▸ hs) (hop old hold s hs) hm'
  | verifyCorrect actor shift readingId verified reason =>
    exact yields_handleVerifyCorrectReading hvd
      fun r nozzle l l' db' n' h _ _ _ _ _ ↦ hsm h.readings
  | approve | reject | flag | verifyShift => exact yields_onlyVerdicts trivial hvd
  | close actor shift now =>
    refine yields_handleCloseShift fun r s lines n' _ _ _ _ ↦ hsm ?_
    rw [replay_closeLog]
  | elsewhere e =>
    cases e with
    | fixtures | openShift => exact fun _ ↦ hsm rfl
    | approveShift id =>
      refine fun _ ↦ hsm ?_
      change (replay (S := schema env) db (Elsewhere.writes db n (.approveShift id))).readings = _
      rw [Elsewhere.writes]
      rcases hfi : db.shifts.find? fun s ↦ s.id = id ∧ s.status = .closed with _ | s <;>
        rw [hfi] <;> rfl

/-- In every sequence of requests that corrects no opening below the expected one, every active
opening is at or above the expected opening at the time it was last written. -/
theorem meterChain_of_correctsAbove (env : Env) {s₀ s : ShiftDb × ℕ} {passed : List (ShiftDb × ℕ)}
    (h : Passes (Op.prog env) (Op.CorrectsAbove env) s₀ passed s) : MeterChain env passed s := by
  have hwri := Passes.written (S := schema env) openings (fun db m ↦ m.Continues env db) h
    fun _ op hop ↦ continues_of_alone op hop
  exact hwri

/-- The nozzle of `smallShift`, assigned on the shifts 0 and 21. -/
def twoShiftFixtures : Fixtures :=
  { smallFixtures with
    assignments := [⟨0, 1, 7⟩, ⟨21, 1, 7⟩]
    attendants := [(0, 7), (21, 7)] }

/-- The shift 0 closes at 200 litres, the shift 21 opens, and its opening of 205 is corrected. -/
def correctedOpening (reading : ℚ) : List Op :=
  [.capture 7 0 1 .opening 100, .capture 7 0 1 .closing 200, .close 8 0 0,
    .elsewhere (.openShift 0 1), .elsewhere (.fixtures twoShiftFixtures),
    .capture 7 21 1 .opening 205, .correct 7 21 27 reading]

/-- The opening is corrected to 200 litres. -/
theorem meterChain_of_correctsAbove_corrected :
    ∃ r : List (ShiftDb × ℕ) × ShiftDb × ℕ,
      Passes (Op.prog smallEnv) (Op.CorrectsAbove smallEnv) smallShift r.1 r.2 ∧
      (openings r.2.1).map (·.reading) = [100000, 200000] ∧ MeterChain smallEnv r.1 r.2 := by
  refine exists_and_imp (fun r ↦ (openings r.2.1).map (·.reading) = [100000, 200000])
    (Passes.exists_of_passAll (S := schema smallEnv) (correctedOpening 200) (by decide +kernel)) ?_
  rintro _ hpas hope
  exact ⟨hope, meterChain_of_correctsAbove smallEnv hpas⟩

/-- The opening is corrected to 150 litres, below the 200 at which the meter stood. -/
theorem not_meterChain_of_correction :
    ∃ r : List (ShiftDb × ℕ) × ShiftDb × ℕ,
      Passes (Op.prog smallEnv) (fun _ _ ↦ True) smallShift r.1 r.2 ∧
      ¬MeterChain smallEnv r.1 r.2 :=
  Passes.exists_of_passAll (S := schema smallEnv) (correctedOpening 150) (by decide +kernel)

end FuelGrid.Forecourt
