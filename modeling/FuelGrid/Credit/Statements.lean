import FuelGrid.Credit.Schema

/-!
# Customer statements

`GenerateStatement` of `internal/fleet/statements.go` sums up a customer's receivables for a period,
by the day on which each entry's transaction began. A statement is not written again when an entry
of its period is committed after it.
-/

namespace FuelGrid.Statements

open Sql Credit

/-- A row of `ar_entries`, with `recorded_at::date`. -/
structure Entry where
  entryType : EntryType
  amount : Money
  day : ℤ

inductive StatementStatus where
  | draft | issued
  deriving DecidableEq

structure Statement where
  id : Uuid
  periodStart : ℤ
  periodEnd : ℤ
  openingBalance : Money
  charges : Money
  payments : Money
  closingBalance : Money
  status : StatementStatus

/-- The rows of one customer. -/
structure Ledger where
  entries : List Entry
  statements : List Statement

/-- `COALESCE(SUM(amount), 0)` of the entries that satisfy `p`. -/
def total (entries : List Entry) (p : Entry → Bool) : Money :=
  ((entries.filter p).map (·.amount)).sum

def generateStatement (entries : List Entry) (id : Uuid) (start stop : ℤ) : Statement where
  id := id
  periodStart := start
  periodEnd := stop
  openingBalance := total entries (·.day < start)
  charges := total entries fun e ↦ start ≤ e.day ∧ e.day ≤ stop ∧ e.entryType = .charge
  payments := -total entries fun e ↦ start ≤ e.day ∧ e.day ≤ stop ∧ e.entryType = .payment
  closingBalance := total entries (·.day ≤ stop)
  status := .draft

inductive Event where
  /-- `PostCharge` commits. -/
  | charge (amount : Money) (day : ℤ)
  /-- `PostPayment` commits. -/
  | payment (amount : Money) (day : ℤ)
  | generate (id : Uuid) (start stop : ℤ)
  | issue (id : Uuid)

def step (s : Ledger) : Event → Ledger
  | .charge amount day => { s with entries := s.entries ++ [⟨.charge, amount, day⟩] }
  | .payment amount day => { s with entries := s.entries ++ [⟨.payment, -amount, day⟩] }
  | .generate id start stop =>
    { s with statements := s.statements ++ [generateStatement s.entries id start stop] }
  | .issue id => { s with statements := s.statements.map fun st ↦
      if st.id = id ∧ st.status = .draft then { st with status := .issued } else st }

/-- Issued statements add up, and one that follows on another opens with its closing balance. -/
def Continuous (s : Ledger) : Prop :=
  ∀ st ∈ s.statements, st.status = .issued →
    st.openingBalance + st.charges - st.payments = st.closingBalance ∧
    ∀ st' ∈ s.statements, st'.status = .issued → st'.periodStart = st.periodEnd + 1 →
      st'.openingBalance = st.closingBalance

/-- No period ends before it starts, and no entry comes in for a day that a statement has
covered. -/
def Timely (s : Ledger) : Event → Prop
  | .charge _ day | .payment _ day => ∀ st ∈ s.statements, st.periodEnd < day
  | .generate _ start stop => start ≤ stop + 1
  | .issue _ => True

/-- Every step of the history is timely. -/
def TimelyRun (s : Ledger) : List Event → Prop
  | [] => True
  | e :: es => Timely s e ∧ TimelyRun (step s e) es

variable {s : Ledger} {entries : List Entry} {e : Entry} {start stop : ℤ} {id : Uuid}

private theorem total_cons (p : Entry → Bool) :
    total (e :: entries) p = (if p e then e.amount else 0) + total entries p := by
  by_cases h : p e <;> simp [total, h]

/-- A statement adds up on the entries that it was computed from. -/
theorem generateStatement_balanced (id : Uuid) (hents : ∀ e ∈ entries, e.entryType ≠ .adjustment)
    (hle : start ≤ stop + 1) :
    let st := generateStatement entries id start stop
    st.openingBalance + st.charges - st.payments = st.closingBalance := by
  simp only [generateStatement, sub_neg_eq_add]
  induction entries with
  | nil => rfl
  | cons e entries ih =>
    obtain ⟨he, hents⟩ := List.forall_mem_cons.mp hents
    simp only [total_cons, ← ih hents, decide_eq_true_eq]
    -- before, within or after the period
    rcases lt_or_ge e.day start with h | h
    · simp [h, h.not_ge, show e.day ≤ stop by omega, add_assoc]
    · by_cases h' : e.day ≤ stop
      · cases ht : e.entryType with
        | charge => simp [h, h', h.not_gt, add_assoc, add_left_comm]
        | payment => simp [h, h', h.not_gt, add_assoc, add_left_comm]
        | adjustment => exact absurd ht he
      · simp [h.not_gt, h']

/-- An entry after the period leaves the figures as they are. -/
theorem generateStatement_snoc (hle : start ≤ stop + 1) (hday : stop < e.day) :
    generateStatement (entries ++ [e]) id start stop = generateStatement entries id start stop := by
  simp [generateStatement, total, hday, show start ≤ e.day by omega]

/-- Every statement is what it would be if it were generated now. -/
structure Current (s : Ledger) : Prop where
  entries : ∀ e ∈ s.entries, e.entryType ≠ .adjustment
  statements : ∀ st ∈ s.statements, st.periodStart ≤ st.periodEnd + 1 ∧
    { st with status := .draft } = generateStatement s.entries st.id st.periodStart st.periodEnd

theorem Current.post (h : Current s) (he : e.entryType ≠ .adjustment)
    (hday : ∀ st ∈ s.statements, st.periodEnd < e.day) :
    Current { s with entries := s.entries ++ [e] } where
  entries x hx := by
    rcases mem_append.mp hx with hx | hx
    · exact h.entries x hx
    · exact mem_singleton.mp hx ▸ he
  statements st hst :=
    have hle := (h.statements st hst).1
    ⟨hle, (h.statements st hst).2.trans (generateStatement_snoc hle (hday st hst)).symm⟩

theorem Current.step (h : Current s) (e : Event) (htim : Timely s e) : Current (step s e) := by
  cases e with
  | charge amount day => exact h.post nofun htim
  | payment amount day => exact h.post nofun htim
  | generate id start stop =>
    refine ⟨h.entries, fun st hst ↦ ?_⟩
    rcases mem_append.mp hst with hst | hst
    · exact h.statements st hst
    · obtain rfl := mem_singleton.mp hst
      exact ⟨htim, rfl⟩
  | issue id =>
    refine ⟨h.entries, fun st hst ↦ ?_⟩
    obtain ⟨st, hmem, rfl⟩ := mem_map.mp hst
    split <;> exact h.statements st hmem

theorem Current.run {es : List Event} (h : Current s) (htim : TimelyRun s es) :
    Current (es.foldl Statements.step s) := by
  induction es generalizing s with
  | nil => exact h
  | cons e es ih => exact ih (h.step e htim.1) htim.2

theorem Current.continuous (h : Current s) : Continuous s := by
  intro st hst _
  obtain ⟨hle, hfig⟩ := h.statements st hst
  refine ⟨?_, fun st' hst' _ hnx ↦ ?_⟩
  · have hbal := generateStatement_balanced st.id h.entries hle
    rw [← hfig] at hbal
    exact hbal
  · calc st'.openingBalance
      _ = total s.entries (·.day < st'.periodStart) :=
        congrArg Statement.openingBalance (h.statements st' hst').2
      _ = total s.entries (·.day ≤ st.periodEnd) := by simp only [hnx, Int.lt_add_one_iff]
      _ = st.closingBalance := (congrArg Statement.closingBalance hfig).symm

/-- In a history of timely steps the statements are continuous. -/
theorem continuous_of_timely (es : List Event) (h : TimelyRun ⟨[], []⟩ es) :
    Continuous (es.foldl step ⟨[], []⟩) :=
  have hemp : Current ⟨[], []⟩ := ⟨nofun, nofun⟩
  (hemp.run h).continuous

/-- Two statements, each generated when its day is over. -/
theorem continuous_of_timely_days :
    Continuous (([.charge 100 1, .generate 1 1 1, .issue 1, .payment 30 2,
    .generate 2 2 2, .issue 2] : List Event).foldl step ⟨[], []⟩) :=
  continuous_of_timely _ (by simp [TimelyRun, Timely, step, generateStatement])

/-- A charge on the day of a statement that was generated before. -/
theorem not_continuous_of_late_charge : ¬Continuous (([.charge 100 1, .generate 1 1 1, .issue 1,
    .charge 50 1, .generate 2 2 2, .issue 2] : List Event).foldl step ⟨[], []⟩) := by
  intro h
  have hnx :=
    (h ⟨1, 1, 1, 0, 100, 0, 100, .issued⟩ (by simp [step, generateStatement, total]) rfl).2
    ⟨2, 2, 2, 100 + 50, 0, 0, 100 + 50, .issued⟩ (by simp [step, generateStatement, total]) rfl rfl
  exact absurd hnx (by decide)

def AddUp (s : Ledger) : Prop :=
  ∀ st ∈ s.statements, st.openingBalance + st.charges - st.payments = st.closingBalance

/-- Statements add up in every history, if no period ends before it starts. -/
theorem addUp_of_run (es : List Event)
    (hes : ∀ id start stop, .generate id start stop ∈ es → start ≤ stop + 1) :
    AddUp (es.foldl step ⟨[], []⟩) := by
  suffices (∀ e ∈ (es.foldl step ⟨[], []⟩).entries, e.entryType ≠ .adjustment) ∧ _ from this.2
  induction es using List.reverseRecOn with
  | nil => exact ⟨nofun, nofun⟩
  | append_singleton es e ih =>
    obtain ⟨hents, hsts⟩ := ih fun id start stop h ↦ hes id start stop (mem_append_left _ h)
    rw [List.foldl_concat]
    cases e with
    | charge | payment =>
      refine ⟨fun e he ↦ ?_, hsts⟩
      rcases mem_snoc.mp he with he | rfl
      · exact hents e he
      · simp
    | generate id start stop =>
      refine ⟨hents, fun st hst ↦ ?_⟩
      rcases mem_snoc.mp hst with hst | rfl
      · exact hsts st hst
      · exact generateStatement_balanced id hents (hes id start stop (by simp))
    | issue id =>
      refine ⟨hents, fun st hst ↦ ?_⟩
      obtain ⟨st, hmem, rfl⟩ := mem_map.mp hst
      split <;> exact hsts st hmem

theorem addUp_of_run_late :
    AddUp (([.charge 9 1, .generate 1 1 1, .charge 5 1] : List Event).foldl step ⟨[], []⟩) :=
  addUp_of_run _ (by simp +contextual)

end FuelGrid.Statements
