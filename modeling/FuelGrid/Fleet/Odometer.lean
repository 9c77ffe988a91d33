import FuelGrid.Sql.Numeric
import FuelGrid.Sql.Txn

/-!
# Odometer readings

`RecordOdometer` of `internal/fleet/odometer.go` under `READ COMMITTED`, for one vehicle. The
statement compares the reading with the largest one that was committed when it began, so of two
transactions that overlap neither sees the other's.
-/

namespace FuelGrid.Fleet

open Sql

inductive ValidationStatus where
  | valid | warning | override
  deriving DecidableEq

/-- A row of `vehicle_odometer_readings`. The columns are `numeric(14,1)`. -/
structure OdometerReading where
  reading : WithTop ℤ
  distanceSince : Option (WithTop ℤ)
  validationStatus : ValidationStatus
  deriving DecidableEq

/-- `max(reading)` -/
def maxReading : List OdometerReading → Option (WithTop ℤ)
  | [] => none
  | r :: rows => some ((maxReading rows).elim r.reading (max r.reading))

/-- The row that the statement inserts; it fails if a figure does not fit. -/
def recordOdometer (rows : List OdometerReading) (reading : Numeric) (override : Bool) :
    Option OdometerReading :=
  match maxReading rows, reading.store 14 1 with
  | none, some stored => some ⟨stored, none, .valid⟩
  | some prev, some stored => ((reading + -ofUnits 1 prev).store 14 1).map fun distance ↦
    ⟨stored, some distance, if reading ≤ ofUnits 1 prev then
      if override then .override else .warning else .valid⟩
  | _, none => none

structure Vehicle where
  committed : List OdometerReading
  /-- The rows of the transactions in progress. -/
  pending : List OdometerReading

inductive Event where
  | record (reading : Numeric) (override : Bool)
  | commit (i : ℕ)
  | rollback (i : ℕ)

def step (s : Vehicle) : Event → Vehicle
  | .record reading override =>
    { s with pending := s.pending ++ (recordOdometer s.committed reading override).toList }
  | .commit i => ⟨s.pending[i]?.toList ++ s.committed, s.pending.eraseIdx i⟩
  | .rollback i => { s with pending := s.pending.eraseIdx i }

/-- Latest first, the readings increase and each distance is the one to the reading before. -/
def Telescopes : List OdometerReading → Prop
  | [] => True
  | r :: l => (∀ p ∈ l.head?, p.reading < r.reading) ∧
    r.distanceSince = l.head?.map (r.reading - ·.reading) ∧ Telescopes l

abbrev valid (rows : List OdometerReading) : List OdometerReading :=
  rows.filter (·.validationStatus = .valid)

/-- Every other row is at most a valid one before it. -/
def Bounded : List OdometerReading → Prop
  | [] => True
  | r :: rows =>
    (r.validationStatus = .valid ∨ ∃ p ∈ valid rows, r.reading ≤ p.reading) ∧ Bounded rows

/-- What the committed rows should satisfy. -/
def OdometerLaw (rows : List OdometerReading) : Prop :=
  (∃ l, (valid rows).Perm l ∧ Telescopes l) ∧ Bounded rows

/-- A reading is recorded in tenths, and commits while no other transaction is in progress. -/
def Alone (s : Vehicle) : Event → Prop
  | .record reading _ => reading.Whole 1
  | .commit _ => s.pending.length ≤ 1
  | .rollback _ => True

instance (s : Vehicle) : DecidablePred (Alone s)
  | .record reading _ => inferInstanceAs (Decidable (reading.Whole 1))
  | .commit _ => inferInstanceAs (Decidable (_ ≤ 1))
  | .rollback _ => .isTrue trivial

/-- Every step of the interleaving meets the condition. -/
def AloneRun (s : Vehicle) : List Event → Prop
  | [] => True
  | e :: es => Alone s e ∧ AloneRun (step s e) es

variable {rows : List OdometerReading} {r : OdometerReading} {s : Vehicle}

/-- In the order of the commits the law holds, and the largest reading is the last valid one. -/
structure Sound (rows : List OdometerReading) : Prop where
  chain : Telescopes (valid rows)
  bounded : Bounded rows
  largest : maxReading rows = (valid rows).head?.map (·.reading)

theorem Sound.record (h : Sound rows) {reading : Numeric} {override : Bool}
    (hr : recordOdometer rows reading override = some r) (hwh : reading.Whole 1) :
    Sound (r :: rows) := by
  rw [recordOdometer, h.largest] at hr
  split at hr
  next stored hprev _ =>
    obtain rfl := some.inj hr
    have hno : (valid rows).head? = none := Option.map_eq_none_iff.mp hprev
    refine ⟨?_, ⟨.inl rfl, h.bounded⟩, ?_⟩
    · simpa [Telescopes, hno] using h.chain
    · simp [maxReading, h.largest, hno]
  next prev stored hprev hsd =>
    obtain ⟨distance, hdis, rfl⟩ := map_eq_some_iff.mp hr
    obtain ⟨p, hp, rfl⟩ := map_eq_some_iff.mp hprev
    by_cases hle : reading ≤ ofUnits 1 p.reading
    · have hle' : stored ≤ p.reading := Numeric.store_le hle hsd
      have hoth : (if override then ValidationStatus.override else .warning) ≠ .valid := by
        split <;> decide
      refine ⟨?_, ⟨.inr ⟨p, List.mem_of_head? hp, hle'⟩, h.bounded⟩, ?_⟩
      · simpa [hle, hoth] using h.chain
      · simp [maxReading, h.largest, hp, hle, hoth, hle']
    · -- in tenths, the reading is compared as it is stored
      rw [hwh.eq_ofUnits hsd] at hle hdis
      have hlt : p.reading < stored := lt_of_not_ge (mt ofUnits_le_ofUnits.mpr hle)
      rw [ofUnits_neg, ofUnits_add] at hdis
      obtain rfl := store_ofUnits hdis
      rw [if_neg (hwh.eq_ofUnits hsd ▸ hle)]
      refine ⟨?_, ⟨.inl rfl, h.bounded⟩, ?_⟩
      · simpa [Telescopes, hp, sub_eq_add_neg] using ⟨hlt, h.chain⟩
      · simp [maxReading, h.largest, hp, hlt.le]
  · cases hr

/-- The committed rows are sound, and stay so whichever transaction in progress commits next. -/
structure Ready (s : Vehicle) : Prop where
  committed : Sound s.committed
  pending : ∀ r ∈ s.pending, Sound (r :: s.committed)

theorem Ready.step (h : Ready s) (e : Event) (halo : Alone s e) : Ready (step s e) := by
  cases e with
  | record reading override =>
    refine ⟨h.committed, fun r hr ↦ ?_⟩
    rcases mem_append.mp hr with hr | hr
    · exact h.pending r hr
    · exact h.committed.record (Option.mem_toList.mp hr) halo
  | commit i =>
    -- what commits is the only row in progress, so no other one is left behind it
    rcases hp : s.pending with _ | ⟨r, _ | ⟨r', rest⟩⟩ <;> simp only [Fleet.step, hp]
    · exact ⟨h.committed, nofun⟩
    · have hr : Sound (r :: s.committed) := h.pending r (hp ▸ mem_cons_self)
      rcases i with _ | i
      · exact ⟨hr, nofun⟩
      · exact ⟨h.committed, fun x hx ↦ mem_singleton.mp hx ▸ hr⟩
    · simp [Alone, hp] at halo
  | rollback i => exact ⟨h.committed, fun r hr ↦ h.pending r (List.mem_of_mem_eraseIdx hr)⟩

theorem Ready.run {es : List Event} (h : Ready s) (halo : AloneRun s es) :
    Ready (es.foldl Fleet.step s) := by
  induction es generalizing s with
  | nil => exact h
  | cons e es ih => exact ih (h.step e halo.1) halo.2

/-- In an interleaving where every reading is in tenths and commits alone, the law holds. -/
theorem odometerLaw_of_alone (es : List Event) (h : AloneRun ⟨[], []⟩ es) :
    OdometerLaw (es.foldl step ⟨[], []⟩).committed :=
  have hrea : Ready ⟨[], []⟩ := ⟨⟨trivial, trivial, rfl⟩, nofun⟩
  ⟨⟨_, .refl _, (hrea.run h).committed.chain⟩, (hrea.run h).committed.bounded⟩

/-- Two readings, one after the other. -/
theorem odometerLaw_of_alone_two : OdometerLaw (([.record (.finite 100) false, .commit 0,
    .record (.finite 150) false, .commit 0] : List Event).foldl step ⟨[], []⟩).committed :=
  odometerLaw_of_alone _
    ⟨by decide +kernel, by decide +kernel, by decide +kernel, by decide +kernel, trivial⟩

/-- Two transactions record the same first reading. -/
def overlapping : Vehicle := ([.record (.finite 100) false, .record (.finite 100) false, .commit 0,
  .commit 0] : List Event).foldl step ⟨[], []⟩

theorem not_odometerLaw_of_overlap : ¬OdometerLaw overlapping.committed := by
  rintro ⟨⟨l, hperm, hl⟩, -⟩
  have hval : valid overlapping.committed = List.replicate 2 ⟨1000, none, .valid⟩ := by
    decide +kernel
  rw [hval] at hperm
  obtain rfl := List.perm_replicate.mp hperm.symm
  exact absurd (hl.1 _ rfl) (lt_irrefl _)

end FuelGrid.Fleet
