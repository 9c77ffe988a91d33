import FuelGrid.Credit.Schema

/-!
# Credit alerts

`ScanCreditAlerts` of `internal/fleet/statements.go` raises an alert for every customer over the
limit. It counts all approved holds, where `CreditPosition` counts the live ones.
-/

namespace FuelGrid.Credit

open Sql

inductive AlertType where
  | overLimit | overdue | other (text : String)
  deriving DecidableEq

inductive Severity where
  | info | low | medium | high | critical
  deriving DecidableEq

inductive AlertStatus where
  | «open» | acknowledged | resolved | dismissed
  deriving DecidableEq

/-- A row of `customer_credit_alerts`. -/
structure CreditAlert where
  customerId : Uuid
  alertType : AlertType
  severity : Severity
  detail : String
  status : AlertStatus
  deriving DecidableEq

/-- The part of `customer_invoices` that the scan reads. -/
structure DueInvoice where
  customerId : Uuid
  /-- `status IN ('issued','partially_paid')` -/
  outstanding : Bool
  dueDate : Option ℤ

structure AlertDb where
  credit : CreditDb
  /-- The ids of the rows of `customers`. -/
  customers : List Uuid
  nodup : customers.Nodup
  mem_customers : ∀ c, (credit.customer c).isSome → c ∈ customers
  invoices : List DueInvoice
  alerts : List CreditAlert

/-- The key of `uq_credit_alert_open` is taken. -/
def Alerted (alerts : List CreditAlert) (customer : Uuid) (type : AlertType) : Prop :=
  ∃ a ∈ alerts, a.customerId = customer ∧ a.alertType = type ∧
    (a.status = .open ∨ a.status = .acknowledged)
  deriving Decidable

/-- The rows that `INSERT … ON CONFLICT … DO NOTHING` adds, where no two have one key. -/
def raiseAlerts (alerts as : List CreditAlert) : List CreditAlert :=
  as.filter fun a ↦ ¬Alerted alerts a.customerId a.alertType

/-- The limit is positive, and below the exposure with the holds that satisfy `p`. -/
def CreditDb.OverLimit (db : CreditDb) (p : Authorization → Bool) (customer : Uuid) : Prop :=
  ∃ c ∈ db.customer customer, 0 < c.creditLimit ∧ c.creditLimit < db.exposure customer p
  deriving Decidable

/-- `OverLimit` of the credit position. -/
def CreditPosition.overLimit (p : CreditPosition) : Bool := p.creditLimit < p.exposure

/-- The rows of the two selects. -/
def overLimitAlerts (db : AlertDb) : List CreditAlert :=
  (db.customers.filter (db.credit.OverLimit fun _ ↦ true)).map fun c ↦
    ⟨c, .overLimit, .high, "exposure exceeds credit limit", .open⟩

@[inherit_doc overLimitAlerts]
def overdueAlerts (db : AlertDb) (today : ℤ) : List CreditAlert :=
  ((db.invoices.filter fun i ↦ i.outstanding ∧ ∃ d ∈ i.dueDate, d < today).map
    (·.customerId)).dedup.map fun c ↦ ⟨c, .overdue, .medium, "has past-due invoices", .open⟩

/-- The alerts that `ScanCreditAlerts` creates. -/
def scanCreditAlerts (db : AlertDb) (today : ℤ) : List CreditAlert :=
  let raised := raiseAlerts db.alerts (overLimitAlerts db)
  raised ++ raiseAlerts (db.alerts ++ raised) (overdueAlerts db today)

/-- The tables after the scan. -/
def scanned (db : AlertDb) (today : ℤ) : AlertDb :=
  { db with alerts := db.alerts ++ scanCreditAlerts db today }

/-- The alerts agree with the credit position. -/
structure AlertsMatch (db : AlertDb) (now today : ℤ) : Prop where
  only : ∀ a ∈ scanCreditAlerts db today, a.alertType = .overLimit →
    ∃ p ∈ creditPosition db.credit a.customerId now, 0 < p.creditLimit ∧ p.overLimit
  all : ∀ c, ∀ p ∈ creditPosition db.credit c now, 0 < p.creditLimit → p.overLimit →
    Alerted (scanned db today).alerts c .overLimit
  again : scanCreditAlerts (scanned db today) today = []

variable {alerts as : List CreditAlert} {a : CreditAlert} {db : AlertDb} {c : Uuid} {t : AlertType}
  {now today : ℤ}

private theorem alerted_append :
    Alerted (alerts ++ as) c t ↔ Alerted alerts c t ∨ Alerted as c t := by
  simp only [Alerted, mem_append, or_and_right, exists_or]

private theorem mem_raiseAlerts : a ∈ raiseAlerts alerts as ↔
    a ∈ as ∧ ¬Alerted alerts a.customerId a.alertType := by
  simp [raiseAlerts]

private theorem alerted_of_mem (h : a ∈ as) (hop : a.status = .open) :
    Alerted (alerts ++ raiseAlerts alerts as) a.customerId a.alertType := by
  by_cases ha : Alerted alerts a.customerId a.alertType
  · exact alerted_append.mpr (.inl ha)
  · exact alerted_append.mpr (.inr ⟨a, mem_raiseAlerts.mpr ⟨h, ha⟩, rfl, rfl, .inl hop⟩)

private theorem raiseAlerts_eq_nil (h : ∀ a ∈ as, Alerted alerts a.customerId a.alertType) :
    raiseAlerts alerts as = [] :=
  List.filter_eq_nil_iff.mpr fun a ha ↦ by simpa using h a ha

private theorem mem_overLimitAlerts (h : a ∈ overLimitAlerts db) :
    db.credit.OverLimit (fun _ ↦ true) a.customerId ∧ .overLimit = a.alertType := by
  obtain ⟨c, hc, rfl⟩ := mem_map.mp h
  exact ⟨of_decide_eq_true (mem_filter.mp hc).2, rfl⟩

/-- The alerts of overdue invoices are of their own type. -/
theorem mem_scanCreditAlerts (h : a ∈ scanCreditAlerts db today) (ht : a.alertType = .overLimit) :
    a ∈ raiseAlerts db.alerts (overLimitAlerts db) := by
  refine (mem_append.mp h).resolve_right fun h ↦ ?_
  obtain ⟨c, -, rfl⟩ := mem_map.mp (mem_raiseAlerts.mp h).1
  cases ht

theorem alerted_scanned (h : db.credit.OverLimit (fun _ ↦ true) c) :
    Alerted (scanned db today).alerts c .overLimit := by
  have hc : c ∈ db.customers := by
    obtain ⟨row, hrow, -⟩ := h
    exact db.mem_customers c (Option.isSome_of_mem hrow)
  rw [scanned, scanCreditAlerts, ← append_assoc]
  exact alerted_append.mpr (.inl (alerted_of_mem
    (mem_map.mpr ⟨c, mem_filter.mpr ⟨hc, decide_eq_true h⟩, rfl⟩) rfl))

/-- A second scan finds every key taken. -/
theorem scanCreditAlerts_scanned : scanCreditAlerts (scanned db today) today = [] := by
  have hover : raiseAlerts (scanned db today).alerts (overLimitAlerts db) = [] :=
    raiseAlerts_eq_nil fun a ha ↦
      (mem_overLimitAlerts ha).2 ▸ alerted_scanned (mem_overLimitAlerts ha).1
  have hdue : raiseAlerts (scanned db today).alerts (overdueAlerts db today) = [] :=
    raiseAlerts_eq_nil fun a ha ↦ by
      have hop : a.status = .open := by
        obtain ⟨c, -, rfl⟩ := mem_map.mp ha
        rfl
      rw [scanned, scanCreditAlerts, ← append_assoc]
      exact alerted_of_mem ha hop
  change raiseAlerts _ (overLimitAlerts db) ++ raiseAlerts (_ ++ raiseAlerts _ (overLimitAlerts db))
    (overdueAlerts db today) = []
  rw [hover, append_nil, hdue, append_nil]

/-- The position reports the customer over a positive limit. -/
theorem overLimit_iff : db.credit.OverLimit (live now) c ↔
    ∃ p ∈ creditPosition db.credit c now, 0 < p.creditLimit ∧ p.overLimit := by
  simp [creditPosition, CreditDb.OverLimit, CreditPosition.overLimit]

/-- The scan agrees with the credit position when, for every customer without an alert, the holds
that have expired make no difference. -/
theorem alertsMatch_iff_overLimit : AlertsMatch db now today ↔
    ∀ c, ¬Alerted db.alerts c .overLimit →
    (db.credit.OverLimit (fun _ ↦ true) c ↔ db.credit.OverLimit (live now) c) := by
  constructor
  · refine fun h c hc ↦ ⟨fun hall ↦ ?_, fun hlv ↦ ?_⟩
    · have hal : Alerted (scanned db today).alerts c .overLimit := alerted_scanned hall
      obtain ⟨a, ha, rfl, ht, -⟩ := (alerted_append.mp hal).resolve_left hc
      exact overLimit_iff.mpr (h.only a ha ht)
    · obtain ⟨p, hp, hpos, hover⟩ := overLimit_iff.mp hlv
      obtain ⟨a, ha, rfl, ht, -⟩ := (alerted_append.mp (h.all c p hp hpos hover)).resolve_left hc
      exact (mem_overLimitAlerts (mem_raiseAlerts.mp (mem_scanCreditAlerts ha ht)).1).1
  · refine fun h ↦ ⟨fun a ha ht ↦ ?_, fun c p hp hpos hover ↦ ?_, scanCreditAlerts_scanned⟩
    · have hmem := mem_raiseAlerts.mp (mem_scanCreditAlerts ha ht)
      exact overLimit_iff.mp ((h _ (ht ▸ hmem.2)).mp (mem_overLimitAlerts hmem.1).1)
    · by_cases hal : Alerted db.alerts c .overLimit
      · exact alerted_append.mpr (.inl hal)
      · exact alerted_scanned ((h c hal).mpr (overLimit_iff.mpr ⟨p, hp, hpos, hover⟩))

/-- The holds that have expired lift the customer over a positive limit. The column of a hold has no
check, so its amount may be negative, and then they bring the customer back under it. -/
def CreditDb.ExpiredTip (db : CreditDb) (now : ℤ) (customer : Uuid) : Prop :=
  ∃ c ∈ db.customer customer, 0 < c.creditLimit ∧
    (db.exposure customer (live now) ≤ c.creditLimit ∧
        c.creditLimit < db.exposure customer (live now) + db.unreleased customer now ∨
      c.creditLimit < db.exposure customer (live now) ∧
        db.exposure customer (live now) + db.unreleased customer now ≤ c.creditLimit)

theorem not_expiredTip_iff {db : CreditDb} : ¬db.ExpiredTip now c ↔
    (db.OverLimit (fun _ ↦ true) c ↔ db.OverLimit (live now) c) := by
  rcases hrow : db.customer c with _ | row
  · simp [CreditDb.ExpiredTip, CreditDb.OverLimit, hrow]
  · simp only [CreditDb.ExpiredTip, CreditDb.OverLimit, hrow, Option.mem_some_iff,
      exists_eq_left', ← db.exposure_eq_live_add, ← not_lt]
    tauto

/-- **Alerts.** The scan agrees with the credit position exactly when every customer whom expired
holds take across the limit has an alert already. -/
theorem alertsMatch_iff (db : AlertDb) (now today : ℤ) :
    AlertsMatch db now today ↔
      ∀ c, ¬Alerted db.alerts c .overLimit → ¬db.credit.ExpiredTip now c := by
  simp only [alertsMatch_iff_overLimit, not_expiredTip_iff]

/-- A limit of one shilling and an expired hold of two. -/
def unswept : AlertDb where
  credit := {
    customer := fun c ↦ if c = 1 then some ⟨(100 : ℤ), .active, false⟩ else none
    entries := []
    authorizations := [⟨2, 1, none, none, (200 : ℤ), (200 : ℤ), .approved, some 0, none, 0⟩]
    limits := []
    credential := fun _ ↦ none
    sales := [] }
  customers := [1]
  nodup := List.nodup_singleton 1
  mem_customers c hc := by
    by_contra h
    simp_all
  invoices := []
  alerts := []

/-- The scan raises an alert for a customer whose position is within the limit. -/
theorem not_alertsMatch_of_expired : ¬AlertsMatch unswept 1 0 := fun h ↦
  absurd (overLimit_iff.mpr (h.only ⟨1, .overLimit, .high, "exposure exceeds credit limit", .open⟩
    (by decide) rfl)) (by decide)

end FuelGrid.Credit
