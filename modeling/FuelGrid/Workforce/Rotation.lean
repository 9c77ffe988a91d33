import FuelGrid.Sql.Txn
import Mathlib.Algebra.Order.Group.Int

/-!
# The rotation of the shift teams

The three teams of a station work the morning, work the evening and rest in turn, on a cycle of
three days from the station's anchor date. Nothing is stored: `rotation` computes the assignment
from the number of days since the anchor. A date is its day number.
-/

namespace FuelGrid.Workforce

open Sql

/-! ## The rotation

The days are counted through a `time.Duration`, which ends after 2⁶³ nanoseconds: beyond 106751 days
from the anchor the assignment stands still. -/

/-- One of the two daily working windows. -/
inductive Slot where
  | morning | evening

/-- Which `rotation_order` works which window, and which rests. -/
structure RotationDay where
  cycleDay : ℤ
  morningOrder : ℤ
  eveningOrder : ℤ
  restOrder : ℤ
  deriving DecidableEq

def RotationDay.orderForSlot (d : RotationDay) : Slot → ℤ
  | .evening => d.eveningOrder
  | .morning => d.morningOrder

/-- `Time.Sub` of two midnights, in nanoseconds: a duration saturates. -/
def sub (b a : ℤ) : ℤ := max (-2 ^ 63) (min (2 ^ 63 - 1) ((b - a) * (24 * 3600 * 10 ^ 9)))

/-- The whole-day difference of the dates. The hours are a whole number, or those of the longest
duration, so that no float is rounded to the next hour. -/
def daysBetween (a b : ℤ) : ℤ := ((sub b a).tdiv (3600 * 10 ^ 9)).tdiv 24

def mod3 (a : ℤ) : ℤ := (a.tmod 3 + 3).tmod 3

/-- The assignment for `date`, where `anchor` is the station's date of cycle day 0. -/
def rotation (anchor date : ℤ) : RotationDay :=
  let cycle := mod3 (daysBetween anchor date)
  let morning := mod3 (3 - cycle)
  ⟨cycle, morning, mod3 (morning + 1), mod3 (morning + 2)⟩

/-- The rotation is fair from a date on: the roles are a permutation of the teams, on the next day
each role has the team of the role before it, and in three days it has had every team. -/
structure Fair (anchor date : ℤ) : Prop where
  perm : let d := rotation anchor date
    [d.morningOrder, d.eveningOrder, d.restOrder].Perm [0, 1, 2]
  step : let d := rotation anchor date
    rotation anchor (date + 1) =
      ⟨(d.cycleDay + 1) % 3, d.restOrder, d.morningOrder, d.eveningOrder⟩
  turns : ∀ role ∈ [RotationDay.morningOrder, RotationDay.eveningOrder, RotationDay.restOrder],
    ([date, date + 1, date + 2].map fun day ↦ role (rotation anchor day)).Perm [0, 1, 2]

private theorem mod3_eq (a : ℤ) : mod3 a = a % 3 := by
  have hneg : -3 < a.tmod 3 := Int.lt_tmod_of_pos a (by decide)
  rw [mod3, Int.tmod_eq_emod_of_nonneg (by omega), Int.tmod_eq_emod]
  split <;> omega

/-- The count stands still where the duration saturates. -/
theorem daysBetween_eq (a b : ℤ) : daysBetween a b = max (-106751) (min 106751 (b - a)) := by
  rcases lt_trichotomy (max (-106751) (min 106751 (b - a))) (b - a) with hlt | heq | hgt
  · have hsub : sub b a = 2 ^ 63 - 1 := by unfold sub; omega
    have hmax : max (-106751) (min 106751 (b - a)) = 106751 := by omega
    rw [daysBetween, hsub, hmax]
    decide
  · have hsub : sub b a = (b - a) * 24 * (3600 * 10 ^ 9) := by unfold sub; omega
    rw [daysBetween, hsub, Int.mul_tdiv_cancel _ (by decide),
      Int.mul_tdiv_cancel _ (by decide), heq]
  · have hsub : sub b a = -2 ^ 63 := by unfold sub; omega
    have hmin : max (-106751) (min 106751 (b - a)) = -106751 := by omega
    rw [daysBetween, hsub, hmin]
    decide

variable {anchor date : ℤ}

private theorem rotation_eq (anchor date : ℤ) {c : ℤ}
    (h : max (-106751) (min 106751 (date - anchor)) % 3 = c) :
    rotation anchor date = ⟨c, (3 - c) % 3, ((3 - c) % 3 + 1) % 3, ((3 - c) % 3 + 2) % 3⟩ := by
  simp only [rotation, mod3_eq, daysBetween_eq, h]

/-- Two days with one count of days have one assignment. -/
theorem rotation_congr {day : ℤ} (h : max (-106751) (min 106751 (date - anchor)) =
    max (-106751) (min 106751 (day - anchor))) : rotation anchor date = rotation anchor day := by
  rw [rotation_eq anchor date (congrArg (· % 3) h), rotation_eq anchor day rfl]

private theorem bounds_of_fair (h : Fair anchor date) :
    -106751 ≤ date - anchor ∧ date - anchor + 2 ≤ 106751 := by
  have htur := (h.turns _ mem_cons_self).nodup_iff.mpr (by decide)
  simp only [map_cons, map_nil, nodup_cons, mem_cons, not_or] at htur
  -- two days of one assignment have one team in the morning
  constructor
  · by_contra hlow
    exact htur.1.1 (congrArg _ (rotation_congr (by omega)))
  · by_contra hhigh
    exact htur.2.1.1 (congrArg _ (rotation_congr (by omega)))

private theorem fair_of_bounds (anchor date : ℤ) (hlow : -106751 ≤ date - anchor)
    (hhigh : date - anchor + 2 ≤ 106751) : Fair anchor date := by
  have h0 := rotation_eq anchor date (c := (date - anchor) % 3) (by omega)
  have h1 := rotation_eq anchor (date + 1) (c := ((date - anchor) % 3 + 1) % 3) (by omega)
  have h2 := rotation_eq anchor (date + 2) (c := ((date - anchor) % 3 + 2) % 3) (by omega)
  have hcyc : (date - anchor) % 3 = 0 ∨ (date - anchor) % 3 = 1 ∨ (date - anchor) % 3 = 2 := by
    omega
  rcases hcyc with h | h | h
  all_goals
    rw [h] at h0 h1 h2
    constructor <;> simp only [map_cons, map_nil, h0, h1, h2] <;> decide

private theorem morningOrder_ne_eveningOrder (anchor date : ℤ) :
    (rotation anchor date).morningOrder ≠ (rotation anchor date).eveningOrder := by
  rw [rotation_eq anchor date rfl]
  show (3 - _) % 3 ≠ ((3 - _) % 3 + 1) % 3
  omega

/-- Every team has a morning in the first three days from the anchor. -/
theorem exists_morningOrder_eq (anchor : ℤ) {order : ℤ} (h : order ∈ [0, 1, 2]) :
    ∃ date, (rotation anchor date).morningOrder = order := by
  have hfair := (fair_of_bounds anchor anchor (by omega) (by omega)).turns _ mem_cons_self
  obtain ⟨date, -, hdate⟩ := mem_map.mp (hfair.mem_iff.mpr h)
  exact ⟨date, hdate⟩

/-! ## Duty

Duty is looked up in two ways: `dutyForUser` takes the anchor of the employee's station and the
order of the employee's team, and `scheduledTeamFor` the team of the station with the order of the
slot. Nothing makes the team one of the employee's station. -/

/-- A row of `employees`. -/
structure Employee where
  id : Uuid
  stationId : Uuid
  userId : Option Uuid
  active : Bool

/-- A row of `shift_teams`. -/
structure Team where
  id : Uuid
  stationId : Uuid
  name : String
  rotationOrder : ℤ

/-- A row of `shift_team_members`. -/
structure Member where
  teamId : Uuid
  employeeId : Uuid

structure Station where
  id : Uuid
  rotationAnchorDate : Option ℤ

/-- The tables of a tenant, with the constraints on teams and memberships. -/
structure Tables where
  stations : List Station
  employees : List Employee
  teams : List Team
  members : List Member
  users : (employees.filterMap Employee.userId).Nodup
  teamIds : (teams.map Team.id).Nodup
  orders : (teams.map fun t ↦ (t.stationId, t.rotationOrder)).Nodup
  order_mem : ∀ t ∈ teams, t.rotationOrder ∈ [0, 1, 2]
  oneTeam : (members.map Member.employeeId).Nodup

structure UserDuty where
  stationId : Uuid
  teamId : Uuid
  teamName : String
  /-- The slot worked, where the user is on duty. -/
  slot : Option Slot

structure ScheduledTeam where
  date : ℤ
  slot : Slot
  team : Option Team
  members : List Employee

/-- The station is not there. -/
inductive LookupError where
  | notFound

variable (db : Tables)

/-- The query of `dutyForUser`: the employee, the team and the anchor of the employee's station. -/
def Tables.rostered (user : Uuid) : Option (Employee × Team × Option ℤ) := do
  let e ← db.employees.find? fun e ↦ e.userId = some user ∧ e.active
  let m ← db.members.find? fun m ↦ m.employeeId = e.id
  let t ← db.teams.find? fun t ↦ t.id = m.teamId
  let st ← db.stations.find? fun st ↦ st.id = e.stationId
  pure (e, t, st.rotationAnchorDate)

def Tables.dutyForUser (user : Uuid) (date : ℤ) : Option UserDuty := do
  let (e, t, anchor?) ← db.rostered user
  let anchor ← anchor?
  let rot := rotation anchor date
  pure ⟨e.stationId, t.id, t.name,
    if t.rotationOrder = rot.morningOrder then some .morning
    else if t.rotationOrder = rot.eveningOrder then some .evening else none⟩

def Tables.rotationAnchor (station : Uuid) : Except LookupError (Option ℤ) :=
  match db.stations.find? fun st ↦ st.id = station with
  | none => .error .notFound
  | some st => .ok st.rotationAnchorDate

def Tables.teamMembers (team : Uuid) : List Employee :=
  (db.members.filter fun m ↦ m.teamId = team).filterMap fun m ↦
    db.employees.find? fun e ↦ e.id = m.employeeId

def Tables.scheduledTeamFor (station : Uuid) (day : ℤ) (slot : Slot) :
    Except LookupError ScheduledTeam := do
  match ← db.rotationAnchor station with
  | none => pure ⟨day, slot, none, []⟩
  | some anchor =>
    let order := (rotation anchor day).orderForSlot slot
    match db.teams.find? fun t ↦ t.stationId = station ∧ t.rotationOrder = order with
    | none => pure ⟨day, slot, none, []⟩
    | some t => pure ⟨day, slot, some t, db.teamMembers t.id⟩

/-- The verdict for a user and a date names a slot exactly where the user's team is the one
scheduled in it at the user's station. -/
def Tables.DutyAgrees (user : Uuid) (date : ℤ) : Prop :=
  ∀ d, db.dutyForUser user date = some d → ∀ slot, d.slot = some slot ↔
    ∃ s t, db.scheduledTeamFor d.stationId date slot = .ok s ∧ s.team = some t ∧ t.id = d.teamId

/-- Where the station has an anchor, the team of a user is one of the user's station. -/
def Tables.OwnStation : Prop :=
  ∀ user e t anchor, db.rostered user = some (e, t, some anchor) → t.stationId = e.stationId

variable {db} {user : Uuid} {e : Employee} {t : Team} {anchor? : Option ℤ}

theorem Tables.team_ext {t t' : Team} (ht : t ∈ db.teams) (ht' : t' ∈ db.teams)
    (h : t.id = t'.id ∨ t.stationId = t'.stationId ∧ t.rotationOrder = t'.rotationOrder) :
    t = t' := by
  rcases h with hid | ⟨hstn, hord⟩
  · exact inj_on_of_nodup_map db.teamIds ht ht' hid
  · exact inj_on_of_nodup_map db.orders ht ht' (Prod.ext hstn hord)

theorem Tables.of_rostered (h : db.rostered user = some (e, t, anchor?)) :
    t ∈ db.teams ∧ db.rotationAnchor e.stationId = .ok anchor? := by
  simp only [rostered, Option.bind_eq_bind, bind_eq_some_iff, Option.pure_def, some.injEq,
    Prod.mk.injEq] at h
  obtain ⟨e, -, m, -, t, ht, st, hst, rfl, rfl, rfl⟩ := h
  exact ⟨mem_of_find?_eq_some ht, by rw [rotationAnchor, hst]⟩

/-- The team scheduled in a slot is the station's team of the slot's order. -/
theorem Tables.scheduled_iff {station : Uuid} (h : db.rotationAnchor station = .ok (some anchor))
    (ht : t ∈ db.teams) (slot : Slot) :
    (∃ s t', db.scheduledTeamFor station date slot = .ok s ∧ s.team = some t' ∧ t'.id = t.id) ↔
      t.stationId = station ∧ t.rotationOrder = (rotation anchor date).orderForSlot slot := by
  have hsch : db.scheduledTeamFor station date slot =
      match db.teams.find? fun t ↦ t.stationId = station ∧
        t.rotationOrder = (rotation anchor date).orderForSlot slot with
      | none => .ok ⟨date, slot, none, []⟩
      | some t => .ok ⟨date, slot, some t, db.teamMembers t.id⟩ := by
    rw [scheduledTeamFor, h]
    rfl
  rw [hsch]
  cases hfi : db.teams.find? _ with
  | none =>
    have hno := List.find?_eq_none.mp hfi t ht
    simp only [decide_eq_true_eq] at hno
    simpa using hno
  | some found =>
    have hmem := mem_of_find?_eq_some hfi
    have hfd := find?_some hfi
    simp only [decide_eq_true_eq] at hfd
    constructor
    · rintro ⟨s, t', hs, hteam, hid⟩
      cases hs
      cases hteam
      rw [← team_ext hmem ht (.inl hid)]
      exact hfd
    · rintro ⟨hstn, hord⟩
      have := team_ext hmem ht (.inr ⟨hfd.1.trans hstn.symm, hfd.2.trans hord.symm⟩)
      exact ⟨_, found, rfl, rfl, by rw [this]⟩

/-- The verdict for a user whose team is on the rotation. -/
theorem Tables.dutyAgrees_iff (h : db.rostered user = some (e, t, some anchor)) :
    db.DutyAgrees user date ↔ ∀ slot,
      t.rotationOrder = (rotation anchor date).orderForSlot slot → t.stationId = e.stationId := by
  obtain ⟨ht, hanc⟩ := of_rostered h
  have hne := morningOrder_ne_eveningOrder anchor date
  simp only [DutyAgrees, dutyForUser, h, Option.bind_eq_bind, Option.bind_some, Option.pure_def,
    some.injEq, forall_eq', scheduled_iff hanc ht]
  refine forall_congr' fun slot ↦ ?_
  cases slot <;> simp only [RotationDay.orderForSlot] <;> grind

/-- The rotation is fair from a date on exactly where the days from the anchor can be counted, and
the two lookups of duty agree exactly where every team on the rotation is one of its member's
station. -/
theorem fair_iff_and_dutyAgrees_iff (anchor date : ℤ) (db : Tables) :
    (Fair anchor date ↔ -106751 ≤ date - anchor ∧ date - anchor + 2 ≤ 106751) ∧
      ((∀ user date, db.DutyAgrees user date) ↔ db.OwnStation) := by
  refine ⟨⟨bounds_of_fair, fun h ↦ fair_of_bounds anchor date h.1 h.2⟩,
    ⟨fun h user e t anchor hrow ↦ ?_, fun h user date d hd ↦ ?_⟩⟩
  · -- a day on which the team has its morning
    obtain ⟨date, hdate⟩ :=
      exists_morningOrder_eq anchor (db.order_mem t (Tables.of_rostered hrow).1)
    exact (Tables.dutyAgrees_iff hrow).mp (h user date) .morning hdate.symm
  · have hrow := hd
    simp only [Tables.dutyForUser, Option.bind_eq_bind, bind_eq_some_iff] at hrow
    obtain ⟨⟨e, t, _⟩, hrow, anchor, rfl, -⟩ := hrow
    exact (Tables.dutyAgrees_iff hrow).mpr (fun _ _ ↦ h user e t anchor hrow) d hd

/-- Station 1 counts from day 0; its employee is put on the first team of station 2. -/
def lentOut : Tables where
  stations := [⟨1, some 0⟩, ⟨2, some 0⟩]
  employees := [⟨10, 1, some 7, true⟩]
  teams := [⟨20, 1, "Team A", 0⟩, ⟨21, 1, "Team B", 1⟩, ⟨22, 1, "Team C", 2⟩,
    ⟨30, 2, "Team A", 0⟩, ⟨31, 2, "Team B", 1⟩, ⟨32, 2, "Team C", 2⟩]
  members := [⟨30, 10⟩]
  users := by decide
  teamIds := by decide
  orders := by decide
  order_mem := by decide
  oneTeam := by decide

/-- The last day counted is followed by itself, and on the day of the anchor the lent employee is
on duty in the morning with a team that is not scheduled. -/
theorem not_fair_and_not_dutyAgrees_of_lentOut :
    ¬ Fair 0 106751 ∧ ¬ lentOut.DutyAgrees 7 0 := by
  refine ⟨fun h ↦ ?_, fun h ↦ ?_⟩
  · exact absurd (bounds_of_fair h).2 (by decide)
  · obtain ⟨s, t, hs, ht, hid⟩ := (h _ rfl .morning).mp rfl
    cases hs
    cases ht
    exact absurd hid (by decide)

end FuelGrid.Workforce
