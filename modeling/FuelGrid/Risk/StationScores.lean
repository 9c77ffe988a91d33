import FuelGrid.Sql.Numeric
import FuelGrid.Sql.Txn
import Mathlib.Algebra.Order.BigOperators.Group.List

/-!
# Station risk scores

`RecomputeStationScores` of `internal/risk/scoring.go` over the alerts of one tenant, and how alerts
are raised and closed.
-/

namespace FuelGrid.Risk

open Sql

inductive Severity where
  | info | low | medium | high | critical

def severityScore : Severity → ℤ
  | .critical => 90
  | .high => 75
  | .low => 40
  | .info => 20
  | .medium => 55

inductive AlertStatus where
  | «open» | acknowledged | investigating | escalated | resolved | dismissed
  deriving DecidableEq

/-- A row of `risk_alerts`. -/
structure Alert where
  id : Uuid
  alertType : String
  severity : Severity
  stationId : Option Uuid
  subjectId : Uuid
  score : ℤ
  status : AlertStatus

/-- `status IN ('open','acknowledged','investigating','escalated')` -/
def Alert.Active (a : Alert) : Prop := a.status ≠ .resolved ∧ a.status ≠ .dismissed
  deriving Decidable

inductive Band where
  | low | watch | elevated | high | critical
  deriving DecidableEq

/-- A row of `risk_scores`. -/
structure Score where
  score : ℤ
  band : Band
  openAlerts : ℕ
  deriving DecidableEq

structure RiskDb where
  alerts : List Alert
  /-- The rows of the dimension `station`; `uq_risk_score_entity` makes them a function. -/
  scores : Uuid → Option Score

/-- The `CASE` of the recomputation. -/
def bandOf (score : ℤ) : Band :=
  if 90 ≤ score then .critical
  else if 70 ≤ score then .high
  else if 40 ≤ score then .elevated
  else if 15 ≤ score then .watch
  else .low

def scoreOf (as : List Alert) : Score :=
  let score := min (as.map (·.score)).sum 100
  ⟨score, bandOf score, as.length⟩

def RiskDb.activeAt (db : RiskDb) (station : Uuid) : List Alert :=
  db.alerts.filter fun a ↦ a.stationId = some station ∧ a.Active

/-! ## Operations -/

/-- `upsertAlert`: `uq_risk_alert_open` lets one active alert in for each type and subject. -/
def upsertAlert (db : RiskDb) (id : Uuid) (alertType : String) (severity : Severity)
    (stationId : Option Uuid) (subjectId : Uuid) : RiskDb :=
  if ∃ a ∈ db.alerts, a.alertType = alertType ∧ a.subjectId = subjectId ∧ a.Active then db
  else { db with alerts := db.alerts ++
    [⟨id, alertType, severity, stationId, subjectId, severityScore severity, .open⟩] }

/-- `alertAllowedFrom` -/
def allowedFrom : AlertStatus → List AlertStatus
  | .open => []
  | .acknowledged => [.open]
  | .investigating => [.open, .acknowledged, .escalated]
  | .escalated => [.open, .acknowledged, .investigating]
  | .resolved | .dismissed => [.open, .acknowledged, .investigating, .escalated]

/-- The update of an alert's status, where it is one of `sources`. -/
def setStatus (db : RiskDb) (id : Uuid) (sources : List AlertStatus) (status : AlertStatus) :
    RiskDb :=
  { db with alerts := db.alerts.map fun a ↦
      if a.id = id ∧ a.status ∈ sources then { a with status } else a }

/-- `TransitionAlert`; a refused transition changes nothing. Closing needs a disposition. -/
def transitionAlert (db : RiskDb) (id : Uuid) (target : AlertStatus) (disposition : Bool) :
    RiskDb :=
  if (target = .resolved ∨ target = .dismissed) ∧ !disposition then db
  else setStatus db id (allowedFrom target) target

def recomputeStationScores (db : RiskDb) : RiskDb :=
  { db with scores := fun s ↦
      if db.activeAt s = [] then db.scores s else some (scoreOf (db.activeAt s)) }

inductive Event where
  | raise (id : Uuid) (alertType : String) (severity : Severity) (stationId : Option Uuid)
    (subjectId : Uuid)
  | transition (id : Uuid) (target : AlertStatus) (disposition : Bool)
  /-- `AttachAlert` to an investigation. -/
  | attach (id : Uuid)
  | recompute

def step (db : RiskDb) : Event → RiskDb
  | .raise id alertType severity station subject =>
    upsertAlert db id alertType severity station subject
  | .transition id target disposition => transitionAlert db id target disposition
  | .attach id => setStatus db id [.open, .acknowledged, .investigating] .escalated
  | .recompute => recomputeStationScores db

/-- The tables after a history. -/
def run (es : List Event) : RiskDb := es.foldl step ⟨[], fun _ ↦ none⟩

/-! ## Scores

The recomputation writes a row for every station with an active alert. A station that has none left
keeps the row it had. -/

/-- Every stored score is the one of the station's active alerts; without any it may be absent. -/
def ScoreLaw (db : RiskDb) : Prop :=
  ∀ s, db.scores s = some (scoreOf (db.activeAt s)) ∨ db.activeAt s = [] ∧ db.scores s = none

/-- Alerts and stored scores weigh something. -/
structure Positive (db : RiskDb) : Prop where
  alerts : ∀ a ∈ db.alerts, 0 < a.score
  scores : ∀ s, ∀ r ∈ db.scores s, 0 < r.score

theorem Positive.setStatus {db : RiskDb} (h : Positive db) (id : Uuid) (sources : List AlertStatus)
    (status : AlertStatus) : Positive (setStatus db id sources status) where
  alerts a ha := by
    obtain ⟨b, hb, rfl⟩ := mem_map.mp ha
    split <;> exact h.alerts b hb
  scores := h.scores

theorem Positive.step {db : RiskDb} (h : Positive db) (e : Event) : Positive (step db e) := by
  cases e with
  | raise id alertType severity station subject =>
    simp only [Risk.step, upsertAlert]
    split
    · exact h
    · refine ⟨fun a ha ↦ ?_, h.scores⟩
      rcases mem_snoc.mp ha with ha | rfl
      · exact h.alerts a ha
      · cases severity <;> exact Int.ofNat_succ_pos _
  | transition id target disposition =>
    simp only [Risk.step, transitionAlert]
    split
    · exact h
    · exact h.setStatus ..
  | attach id => exact h.setStatus ..
  | recompute =>
    refine ⟨h.alerts, fun s r hr ↦ ?_⟩
    simp only [Risk.step, recomputeStationScores] at hr
    split at hr
    · exact h.scores s r hr
    · obtain rfl := Option.mem_some_iff.mp hr
      refine lt_min (List.sum_pos _ (fun x hx ↦ ?_) (by simpa)) (by decide)
      obtain ⟨a, ha, rfl⟩ := mem_map.mp hx
      exact h.alerts a (mem_of_mem_filter ha)

theorem positive_run (es : List Event) : Positive (run es) := by
  suffices ∀ db, Positive db → Positive (es.foldl step db) from this _ ⟨nofun, nofun⟩
  induction es with
  | nil => exact fun _ h ↦ h
  | cons e es ih => exact fun db h ↦ ih _ (h.step e)

/-- After a recomputation the law holds when every station with a stored score has an active
alert. -/
theorem scoreLaw_recompute_iff (es : List Event) :
    ScoreLaw (recomputeStationScores (run es)) ↔
      ∀ s, (run es).scores s ≠ none → (run es).activeAt s ≠ [] := by
  refine ⟨fun h s hs hno ↦ ?_, fun h s ↦ ?_⟩
  · have hkt : (recomputeStationScores (run es)).scores s = (run es).scores s := if_pos hno
    rcases h s with h | h
    · have hpos := (positive_run es).scores s _ (hkt ▸ h)
      change 0 < (scoreOf ((run es).activeAt s)).score at hpos
      simp [hno, scoreOf] at hpos
    · exact hs (hkt ▸ h.2)
  · by_cases hno : (run es).activeAt s = []
    · exact .inr ⟨hno, (if_pos hno).trans (not_not.mp fun hs ↦ h s hs hno)⟩
    · exact .inl (if_neg hno)

/-- The only alert of a scored station is resolved. -/
theorem not_scoreLaw_of_resolved : ¬ScoreLaw (recomputeStationScores (run
    [.raise 1 "stockout_coverage" .high (some 2) 3, .recompute, .transition 1 .resolved true])) :=
  fun h ↦ absurd (h 2) (by decide)

/-! ## Active alerts

Every update of a status starts from an active one, so an alert that was closed stays closed, and
the index keeps out a second active alert of its type and subject. -/

/-- Each type and subject has one active alert at most. -/
def OneActive (db : RiskDb) : Prop :=
  db.alerts.Pairwise fun a b ↦
    a.Active → b.Active → a.alertType = b.alertType → a.subjectId ≠ b.subjectId

/-- An update of the status that starts from active alerts makes none of a closed one. -/
theorem OneActive.setStatus {db : RiskDb} (h : OneActive db) {sources : List AlertStatus}
    (hsrc : ∀ st ∈ sources, st ≠ .resolved ∧ st ≠ .dismissed) (id : Uuid) (status : AlertStatus) :
    OneActive (setStatus db id sources status) := by
  have hup : ∀ a : Alert, let b := if a.id = id ∧ a.status ∈ sources then { a with status } else a
      (b.Active → a.Active) ∧ b.alertType = a.alertType ∧ b.subjectId = a.subjectId := by
    intro a
    dsimp only
    split
    next hin => exact ⟨fun _ ↦ hsrc _ hin.2, rfl, rfl⟩
    · exact ⟨fun ha ↦ ha, rfl, rfl⟩
  refine List.pairwise_map.mpr (h.imp fun {a b} hab ha hb ↦ ?_)
  rw [(hup a).2.1, (hup b).2.1, (hup a).2.2, (hup b).2.2]
  exact hab ((hup a).1 ha) ((hup b).1 hb)

theorem OneActive.step {db : RiskDb} (h : OneActive db) (e : Event) : OneActive (step db e) := by
  cases e with
  | raise id alertType severity station subject =>
    simp only [Risk.step, upsertAlert]
    split
    · exact h
    next hno =>
      refine List.pairwise_append.mpr
        ⟨h, List.pairwise_singleton .., fun a ha b hb hact _ ht hs ↦ ?_⟩
      obtain rfl := mem_singleton.mp hb
      exact hno ⟨a, ha, ht, hs, hact⟩
  | transition id target disposition =>
    simp only [Risk.step, transitionAlert]
    split
    · exact h
    · exact h.setStatus (by cases target <;> decide) ..
  | attach id => exact h.setStatus (by decide) ..
  | recompute => exact h

private theorem mem_setStatus_of_closed {db : RiskDb} {sources : List AlertStatus}
    (hsrc : ∀ st ∈ sources, st ≠ .resolved ∧ st ≠ .dismissed) {a : Alert} (ha : a ∈ db.alerts)
    (hcl : ¬a.Active) (id : Uuid) (status : AlertStatus) :
    a ∈ (setStatus db id sources status).alerts :=
  mem_map.mpr ⟨a, ha, if_neg fun hin ↦ hcl (hsrc _ hin.2)⟩

private theorem mem_step_of_closed {db : RiskDb} {a : Alert} (ha : a ∈ db.alerts) (hcl : ¬a.Active)
    (e : Event) : a ∈ (step db e).alerts := by
  cases e with
  | raise id alertType severity station subject =>
    simp only [step, upsertAlert]
    split
    · exact ha
    · exact mem_append_left _ ha
  | transition id target disposition =>
    simp only [step, transitionAlert]
    split
    · exact ha
    · exact mem_setStatus_of_closed (by cases target <;> decide) ha hcl ..
  | attach id => exact mem_setStatus_of_closed (by decide) ha hcl ..
  | recompute => exact ha

/-- However alerts are raised and moved, no type and subject ever has two active ones, and one that
was closed stays as it is. -/
theorem oneActive_run (es : List Event) : OneActive (run es) ∧
    ∀ es' : List Event, ∀ a ∈ (run es).alerts, ¬a.Active → a ∈ (run (es ++ es')).alerts := by
  constructor
  · induction es using List.reverseRecOn with
    | nil => exact .nil
    | append_singleton es e ih =>
      rw [run, List.foldl_concat]
      exact ih.step e
  · intro es' a ha hcl
    induction es' using List.reverseRecOn with
    | nil => rwa [append_nil]
    | append_singleton es' e ih =>
      rw [← append_assoc, run, List.foldl_concat]
      exact mem_step_of_closed ih hcl e

end FuelGrid.Risk
