import FuelGrid.Forecourt.Schema
import FuelGrid.Stock.Ledger
import Mathlib.Data.List.Dedup
import Mathlib.Data.List.Sort

/-!
# Posting the sales of a shift

`PostSalesForShift` of `internal/inventory/sales.go` draws the metered litres of a shift down from
its tanks, one movement for each tank. A tank without an opening balance is skipped, to be posted by
a later run. `postShiftSales` calls it with the litres that `LitresSoldPerTankForShift` sums from
the close lines.

## Main definitions

* `litresSoldPerTankForShift`, `postSalesForShift`: the source's functions;
* `SalesExact`: every sale of a shift is the only one of its tank and takes the tank's litres;
* `Backfilled`: what a completed run has posted;
* `TanksOpenTogether`: of the tanks a shift sold from, all or none are open.
-/

namespace FuelGrid.Stock

open Sql
open Forecourt (ShiftDb CloseLine Nozzle)

/-! ## The metered litres -/

/-- What the sales use from outside of the tables. The litres go from the database to the ledger as
a `float64` and a text made from it. -/
structure SalesEnv where
  /-- The order of the generated ids, which are random. -/
  rank : Uuid → ℕ
  /-- The nearest `float64`. -/
  round64 : ℚ → ℚ
  /-- The decimal that `strconv.FormatFloat(x, 'f', 3, 64)` prints. -/
  formatFloat : ℚ → ℚ
  /-- A `float64` holds fifteen digits, so litres that fit the column come back as they were. -/
  formatFloat_round64 : ∀ u : ℤ, |u| < 10 ^ 14 →
    formatFloat (-round64 ((u : ℚ) / 10 ^ 3)) = -((u : ℚ) / 10 ^ 3)
  /-- Rounding does not bring litres that are too large for the column back into it. -/
  le_formatFloat_round64 : ∀ u : ℤ, 10 ^ 14 ≤ |u| →
    10 ^ 11 ≤ |formatFloat (-round64 ((u : ℚ) / 10 ^ 3))|
  /-- The thousandths of a litre are far from the smallest `float64`. -/
  round64_eq_zero : ∀ u : ℤ, round64 ((u : ℚ) / 10 ^ 3) = 0 ↔ u = 0

/-- Floats that round nothing. -/
def SalesEnv.plain : SalesEnv where
  rank i := i
  round64 x := x
  formatFloat x := x
  formatFloat_round64 _ _ := rfl
  le_formatFloat_round64 u hu := by
    have hu : (10 : ℚ) ^ 14 ≤ |(u : ℚ)| := by exact_mod_cast hu
    rw [abs_neg, abs_div, abs_of_pos (by positivity : (0 : ℚ) < 10 ^ 3),
      le_div_iff₀ (by positivity)]
    linarith
  round64_eq_zero u := by simp

/-- A tank's metered litres for a shift, a `float64`. -/
structure SaleLine where
  tankId : Uuid
  litresSold : ℚ

/-- The rows of `shift_close_lines` of a shift joined with their nozzles: a tank and litres drawn
from it. -/
def tankLitres (fd : ShiftDb) (shift : Uuid) : List (Uuid × ℤ) :=
  (fd.lines.filter (·.shiftId = shift)).flatMap fun l ↦
    (fd.fixtures.nozzles.filter (·.id = l.nozzleId)).map fun z ↦ (z.tankId, l.litresSold)

/-- The litres a shift has drawn from a tank, in thousandths. -/
def metered (fd : ShiftDb) (shift tank : Uuid) : ℤ :=
  (((tankLitres fd shift).filter (·.1 = tank)).map Prod.snd).sum

variable (senv : SalesEnv)

/-- The tanks with a close line on the shift, in order. -/
def soldTanks (fd : ShiftDb) (shift : Uuid) : List Uuid :=
  ((tankLitres fd shift).map Prod.fst).dedup.insertionSort fun t t' ↦ senv.rank t ≤ senv.rank t'

def litresSoldPerTankForShift (fd : ShiftDb) (shift : Uuid) : List SaleLine :=
  (soldTanks senv fd shift).map fun tank ↦
    ⟨tank, senv.round64 ((metered fd shift tank : ℚ) / 10 ^ 3)⟩

private theorem soldTanks_nodup (fd : ShiftDb) (shift : Uuid) : (soldTanks senv fd shift).Nodup :=
  (List.perm_insertionSort _ _).nodup_iff.mpr (List.nodup_dedup _)

private theorem mem_soldTanks {fd : ShiftDb} {shift tank : Uuid} (h : metered fd shift tank ≠ 0) :
    tank ∈ soldTanks senv fd shift := by
  rw [soldTanks, (List.perm_insertionSort _ _).mem_iff, List.mem_dedup]
  by_contra hnot
  refine h ?_
  have hno : (tankLitres fd shift).filter (·.1 = tank) = [] :=
    filter_eq_nil_iff.mpr fun x hx htk ↦
      hnot (mem_map.mpr ⟨x, hx, of_decide_eq_true htk⟩)
  rw [metered, hno, map_nil, List.sum_nil]

/-! ## The runs -/

variable (env : Env) {m : Movement} {n : ℕ} {lines : List SaleLine} {ms : List Movement}

def SaleLine.toPost (shift : Uuid) (line : SaleLine) : PostInput where
  tankId := line.tankId
  movementType := .sales
  sourceRefType := some .shift
  sourceRefId := some shift
  litres := senv.formatFloat (-line.litresSold)
  supersedesId := none

/-- The loop of `PostSalesForShift`. -/
def postSaleLines (shift : Uuid) (k : Except StockError (List Movement × List Uuid) → Txn env) :
    List SaleLine → List Movement → List Uuid → Txn env
  | [], posted, skipped => k (.ok (posted, skipped))
  | line :: lines, posted, skipped =>
    if line.litresSold = 0 then postSaleLines shift k lines posted skipped
    else .query (.hasOpening line.tankId) fun has ↦
      if has then
        postMovement env (line.toPost senv shift) fun
          | .error e => k (.error e)
          | .ok m => postSaleLines shift k lines (posted ++ [m]) skipped
      else postSaleLines shift k lines posted (skipped ++ [line.tankId])

def postSalesForShift (shift : Uuid) (lines : List SaleLine)
    (k : Except StockError (List Movement × List Uuid) → Txn env) : Txn env :=
  .query (.salesPostedForShift shift) fun already ↦
    if already then k (.ok ([], [])) else postSaleLines senv env shift k lines [] []

def answerSales : Except StockError (List Movement × List Uuid) → Txn env
  | .error _ => .rollback (.http 500 "internal error")
  | .ok (posted, skipped) => .commit (.sales posted skipped)

def postShiftSales (fd : ShiftDb) (shift : Uuid) : Txn env :=
  postSalesForShift senv env shift (litresSoldPerTankForShift senv fd shift) (answerSales env)

/-- Runs and openings. -/
inductive SalesOp where
  | postShiftSales (shift : Uuid)
  | setOpeningBalance (input : OpeningInput)

/-- The close lines of a shift do not change any more when its sales are posted. -/
def SalesOp.prog (fd : ShiftDb) : SalesOp → Txn env
  | .postShiftSales shift => Stock.postShiftSales senv env fd shift
  | .setOpeningBalance input =>
    Stock.setOpeningBalance env input (orRollback env fun _ ↦ .commit .done)

/-! ## Skipped tanks

A run first asks whether the shift has a sale on the ledger, and that question is about the shift as
a whole. So a run that posts one tank and skips another is the last that posts anything: the later
run that should post the skipped tank finds the sale of the first one and returns
(`not_backfilled_of_partialRun`). -/

def StockDb.salesOf (db : StockDb) (shift : Uuid) : List Movement :=
  db.movements.filter (·.IsSaleOf shift)

/-- A tank has at most one sale of the shift, and it takes exactly the litres of the tank. -/
structure SalesExact (fd : ShiftDb) (shift : Uuid) (db : StockDb) : Prop where
  litres : ∀ m ∈ db.salesOf shift, m.litres = -metered fd shift m.tankId
  once : ((db.salesOf shift).map Movement.tankId).Nodup

/-- What a completed run from `db` has to reach: a sale of every tank with litres that was open, and
if they all were, the litres of the shift as a whole. -/
structure Backfilled (fd : ShiftDb) (shift : Uuid) (db db' : StockDb) : Prop where
  posted : ∀ tank, metered fd shift tank ≠ 0 → db.HasOpening tank →
    ∃ m ∈ db'.salesOf shift, m.tankId = tank
  total : (∀ tank, metered fd shift tank ≠ 0 → db.HasOpening tank) →
    sumLitres (db'.salesOf shift)
      = -((soldTanks senv fd shift).map (metered fd shift)).sum

/-- Of the tanks the shift sold from, all or none have an opening balance. -/
def TanksOpenTogether (fd : ShiftDb) (shift : Uuid) (db : StockDb) : Prop :=
  ∀ tank ∈ soldTanks senv fd shift, ∀ tank' ∈ soldTanks senv fd shift,
    metered fd shift tank ≠ 0 → metered fd shift tank' ≠ 0 → db.HasOpening tank →
      db.HasOpening tank'
  deriving Decidable

/-- No run of the shift posts one tank and skips another. -/
def NoPartialRun (fd : ShiftDb) (shift : Uuid) (db : StockDb) : SalesOp → Prop
  | .postShiftSales shift' => shift' = shift → TanksOpenTogether senv fd shift db
  | .setOpeningBalance _ => True

instance (fd : ShiftDb) (shift : Uuid) (db : StockDb) (op : SalesOp) :
    Decidable (NoPartialRun senv fd shift db op) :=
  match op with
  | .postShiftSales _ => inferInstanceAs (Decidable (_ → _))
  | .setOpeningBalance _ => inferInstanceAs (Decidable True)

/-! ## What a run does -/

/-- The row that a run posts for a line. -/
structure Sells (shift : Uuid) (line : SaleLine) (m : Movement) : Prop where
  tankId : m.tankId = line.tankId
  isSaleOf : m.IsSaleOf shift
  status : m.status = .posted
  litres : store 14 3 (senv.formatFloat (-line.litresSold)) = some m.litres

private theorem sells_of_insertMovement {db : StockDb} {shift : Uuid} {line : SaleLine}
    (h : insertMovement db n (line.toPost senv shift) = .ok m) : Sells senv shift line m := by
  obtain ⟨hrow, hlit, -, -⟩ := insertMovement_eq_ok h
  refine ⟨?_, ⟨?_, ?_, ?_⟩, ?_, hlit⟩ <;> rw [hrow] <;> rfl

private theorem hasOpening_insertMovement {db : StockDb} (h : m.movementType = .sales)
    (tank : Uuid) :
    (db.apply (.insertMovement m)).HasOpening tank ↔ db.HasOpening tank := by
  unfold StockDb.HasOpening StockDb.ledger StockDb.apply
  simp only [mem_filter, mem_append, mem_singleton, decide_eq_true_eq]
  constructor
  · rintro ⟨m', ⟨hm' | rfl, htk⟩, hop⟩
    · exact ⟨m', ⟨hm', htk⟩, hop⟩
    · exact absurd (h.symm.trans hop.1) (by decide)
  · rintro ⟨m', ⟨hm', htk⟩, hop⟩
    exact ⟨m', ⟨.inl hm', htk⟩, hop⟩

/-- The lines of the tanks that are open, and litres were drawn from. -/
def openLines (db : StockDb) (lines : List SaleLine) : List SaleLine :=
  lines.filter fun line ↦ line.litresSold ≠ 0 ∧ db.HasOpening line.tankId

/-- The tanks that a run has to leave for a later one. -/
def skippedTanks (db : StockDb) (lines : List SaleLine) : List Uuid :=
  (lines.filter fun line ↦ line.litresSold ≠ 0 ∧ ¬db.HasOpening line.tankId).map SaleLine.tankId

section Alone

variable {senv} {env} {Q : StockResult → StockDb → ℕ → Prop} {db view : StockDb} {shift : Uuid}

/-- The loop fails, or posts the open lines and returns the tanks of the others. -/
theorem yields_postSaleLines {posted : List Movement} {skipped : List Uuid}
    (hop : ∀ tank, view.HasOpening tank ↔ db.HasOpening tank)
    (hok : ∀ ms n', Forall₂ (Sells senv shift) (openLines db lines) ms →
      Q (.sales (posted ++ ms) (skipped ++ skippedTanks db lines))
        (replay (S := schema env) view (ms.map .insertMovement)) n') :
    (postSaleLines senv env shift (answerSales env) lines posted skipped).Yields db Q view n := by
  induction lines generalizing posted skipped view n with
  | nil =>
    have hnil := hok [] n .nil
    rw [append_nil] at hnil
    rw [← append_nil skipped]
    exact hnil
  | cons line lines ih =>
    simp only [openLines, skippedTanks, filter_cons, decide_eq_true_eq, apply_ite (List.map _),
      map_cons] at hok
    unfold postSaleLines
    by_cases hz : line.litresSold = 0
    · rw [if_neg fun h ↦ h.1 hz, if_neg fun h ↦ h.1 hz] at hok
      rw [if_pos hz]
      exact ih hop hok
    · rw [if_neg hz]
      refine yields_reply rfl fun has hhas ↦ ?_
      have hhas : decide (view.HasOpening line.tankId) = has := hhas
      rw [decide_eq_decide.mpr (hop line.tankId)] at hhas
      by_cases hln : db.HasOpening line.tankId
      · rw [if_pos ⟨hz, hln⟩, if_neg fun h ↦ h.2 hln] at hok
        rw [decide_eq_true hln] at hhas
        subst hhas
        refine yields_postMovement (fun _ _ _ ↦ by trivial) fun m n' _ hins ↦ ?_
        have hsel := sells_of_insertMovement senv hins
        refine ih (fun tank ↦ ?_) fun ms n'' hms ↦ ?_
        · exact (hasOpening_insertMovement hsel.isSaleOf.2.2 tank).trans (hop tank)
        · rw [append_assoc]
          exact hok (m :: ms) n'' (.cons hsel hms)
      · rw [if_neg fun h ↦ hln h.2, if_pos ⟨hz, hln⟩] at hok
        rw [decide_eq_false hln] at hhas
        subst hhas
        refine ih hop fun ms n' hms ↦ ?_
        rw [append_assoc]
        exact hok ms n' hms

private theorem movements_replay_insert (db : StockDb) (ms : List Movement) :
    (replay (S := schema env) db (ms.map .insertMovement)).movements = db.movements ++ ms := by
  induction ms generalizing db with
  | nil => rw [map_nil, replay_nil, append_nil]
  | cons m ms ih =>
    rw [map_cons, replay_cons, ih]
    exact append_assoc _ [m] ms

/-- A run fails, or finds a sale of the shift and does nothing, or finds none and posts the open
lines. -/
theorem yields_postShiftSales {fd : ShiftDb}
    (hdone : (∃ m ∈ db.movements, m.IsSaleOf shift ∧ m.status = .posted) →
      ∀ n', Q (.sales [] []) db n')
    (hpost : (¬∃ m ∈ db.movements, m.IsSaleOf shift ∧ m.status = .posted) →
      ∀ ms db' n', Forall₂ (Sells senv shift)
        (openLines db (litresSoldPerTankForShift senv fd shift)) ms →
      db'.movements = db.movements ++ ms →
      Q (.sales ms (skippedTanks db (litresSoldPerTankForShift senv fd shift))) db' n') :
    (postShiftSales senv env fd shift).Yields db Q db n := by
  refine yields_reply rfl fun already halr ↦ ?_
  have halr : decide (∃ m ∈ db.movements, m.IsSaleOf shift ∧ m.status = .posted) = already :=
    halr
  rcases already with _ | _
  · refine yields_postSaleLines (fun _ ↦ Iff.rfl) fun ms n' hms ↦ ?_
    exact hpost (of_decide_eq_false halr) ms _ n' hms (movements_replay_insert db ms)
  · exact hdone (of_decide_eq_true halr) _

end Alone

/-- The sale takes the litres the tank was metered at: litres that would have lost digits on the way
do not fit the column. -/
theorem Sells.litres_eq {shift tank : Uuid} {u : ℤ}
    (h : Sells senv shift ⟨tank, senv.round64 ((u : ℚ) / 10 ^ 3)⟩ m) : m.litres = -u := by
  have hsto := h.litres
  dsimp only at hsto
  rcases lt_or_ge |u| (10 ^ 14) with hu | hu
  · rw [senv.formatFloat_round64 u hu] at hsto
    refine store_units ?_ hsto
    push_cast
    ring
  · have hlt := abs_lt_of_store hsto
    have hle := senv.le_formatFloat_round64 u hu
    rw [abs_mul, abs_of_pos (by positivity : (0 : ℚ) < 10 ^ 3)] at hlt
    linarith

private theorem exists_sells {shift : Uuid} (h : Forall₂ (Sells senv shift) lines ms)
    (hm : m ∈ ms) :
    ∃ line ∈ lines, Sells senv shift line m := by
  induction h with
  | nil => cases hm
  | cons hln _ ih =>
    rcases mem_cons.mp hm with rfl | hm
    · exact ⟨_, mem_cons_self, hln⟩
    · obtain ⟨line, hmem, hsel⟩ := ih hm
      exact ⟨line, mem_cons_of_mem _ hmem, hsel⟩

private theorem tankId_of_sells {shift : Uuid} (h : Forall₂ (Sells senv shift) lines ms) :
    ms.map Movement.tankId = lines.map SaleLine.tankId := by
  induction h with
  | nil => rfl
  | cons hln _ ih => rw [map_cons, map_cons, ih, hln.tankId]

section Lines

variable {senv} {fd : ShiftDb} {shift : Uuid} {db : StockDb}

private theorem mem_openLines {line : SaleLine} :
    line ∈ openLines db (litresSoldPerTankForShift senv fd shift) ↔
      line.tankId ∈ soldTanks senv fd shift ∧ metered fd shift line.tankId ≠ 0 ∧
      db.HasOpening line.tankId ∧
      line = ⟨line.tankId, senv.round64 ((metered fd shift line.tankId : ℚ) / 10 ^ 3)⟩ := by
  rw [openLines, mem_filter, decide_eq_true_iff, litresSoldPerTankForShift, mem_map]
  constructor
  · rintro ⟨⟨tank, htk, rfl⟩, hne, hop⟩
    exact ⟨htk, fun h ↦ hne ((senv.round64_eq_zero _).mpr h), hop, rfl⟩
  · rintro ⟨htk, hne, hop, hln⟩
    refine ⟨⟨_, htk, hln.symm⟩, ?_, hop⟩
    rw [hln]
    exact fun h ↦ hne ((senv.round64_eq_zero _).mp h)

private theorem openLines_tankId_nodup :
    ((openLines db (litresSoldPerTankForShift senv fd shift)).map SaleLine.tankId).Nodup := by
  refine (soldTanks_nodup senv fd shift).sublist ?_
  have htan : (litresSoldPerTankForShift senv fd shift).map SaleLine.tankId
      = soldTanks senv fd shift := by
    rw [litresSoldPerTankForShift, map_map]
    exact List.map_id _
  rw [← htan]
  exact filter_sublist.map _

end Lines

/-! ## Every run

Where no run posts one tank and skips another, the runs do what the comment on `PostSalesForShift`
says (`salesBackfill_of_noPartialRun`). -/

private theorem sum_map_filter_ne_zero {α : Type} (f : α → ℤ) (l : List α) :
    ((l.filter fun a ↦ f a ≠ 0).map f).sum = (l.map f).sum := by
  induction l with
  | nil => rfl
  | cons a l ih =>
    rw [map_cons, sum_cons, ← ih, filter_cons]
    by_cases hz : f a = 0
    · rw [if_neg (by simpa using hz), hz, zero_add]
    · rw [if_pos (by simpa using hz), map_cons, sum_cons]

private theorem salesOf_append {db db' : StockDb} (h : db'.movements = db.movements ++ ms)
    (shift : Uuid) :
    db'.salesOf shift = db.salesOf shift ++ ms.filter (·.IsSaleOf shift) := by
  rw [StockDb.salesOf, h, filter_append]
  rfl

/-- What the transactions keep: a shift that has a sale has all of them. -/
structure SalesInv (fd : ShiftDb) (shift : Uuid) (db : StockDb) : Prop
    extends SalesExact fd shift db where
  posted : ∀ m ∈ db.salesOf shift, m.status = .posted
  drawn : ∀ m ∈ db.salesOf shift, metered fd shift m.tankId ≠ 0
  complete : db.salesOf shift ≠ [] → ∀ tank, metered fd shift tank ≠ 0 →
    tank ∈ (db.salesOf shift).map Movement.tankId

section Inv

variable {senv} {fd : ShiftDb} {shift : Uuid} {db db' : StockDb}

theorem SalesInv.of_nil (h : db.salesOf shift = []) : SalesInv fd shift db := by
  refine ⟨⟨?_, ?_⟩, ?_, ?_, fun hne ↦ absurd h hne⟩ <;> rw [h]
  · exact nofun
  · exact nodup_nil
  · exact nofun
  · exact nofun

/-- A run that starts with no sale of the shift, while its tanks are open together. -/
theorem SalesInv.of_sells (htog : TanksOpenTogether senv fd shift db)
    (hms : Forall₂ (Sells senv shift)
      (openLines db (litresSoldPerTankForShift senv fd shift)) (db'.salesOf shift)) :
    SalesInv fd shift db' := by
  have hrow : ∀ m ∈ db'.salesOf shift, m.tankId ∈ soldTanks senv fd shift ∧
      metered fd shift m.tankId ≠ 0 ∧ db.HasOpening m.tankId ∧
      m.litres = -metered fd shift m.tankId ∧ m.status = .posted := fun m hm ↦ by
    obtain ⟨line, hln, hsel⟩ := exists_sells senv hms hm
    obtain ⟨htk, hne, hop, heq⟩ := mem_openLines.mp hln
    have hst := hsel.status
    rw [hsel.tankId]
    rw [heq] at hsel
    exact ⟨htk, hne, hop, hsel.litres_eq, hst⟩
  refine ⟨⟨fun m hm ↦ (hrow m hm).2.2.2.1, ?_⟩, fun m hm ↦ (hrow m hm).2.2.2.2,
    fun m hm ↦ (hrow m hm).2.1, fun hsm tank htk ↦ ?_⟩
  · rw [tankId_of_sells senv hms]
    exact openLines_tankId_nodup
  · -- the tank of the first sale is open, hence all are, hence all were posted
    obtain ⟨m, hm⟩ := List.exists_mem_of_ne_nil _ hsm
    obtain ⟨hsold, hne, hop, -, -⟩ := hrow m hm
    have htk' := mem_soldTanks senv htk
    have hop' := htog _ hsold _ htk' hne htk hop
    rw [tankId_of_sells senv hms]
    exact mem_map.mpr ⟨⟨tank, senv.round64 ((metered fd shift tank : ℚ) / 10 ^ 3)⟩,
      mem_openLines.mpr ⟨htk', htk, hop', rfl⟩, rfl⟩

section SalesInv

variable (h : SalesInv fd shift db)

include h

theorem SalesInv.total
    (hall : ∀ tank, metered fd shift tank ≠ 0 → tank ∈ (db.salesOf shift).map Movement.tankId) :
    sumLitres (db.salesOf shift) = -((soldTanks senv fd shift).map (metered fd shift)).sum := by
  have hperm : ((db.salesOf shift).map Movement.tankId).Perm
      ((soldTanks senv fd shift).filter fun tank ↦ metered fd shift tank ≠ 0) := by
    refine (List.perm_ext_iff_of_nodup h.once ((soldTanks_nodup senv fd shift).filter _)).mpr
      fun tank ↦ ?_
    rw [mem_filter, decide_eq_true_iff]
    constructor
    · intro hmem
      obtain ⟨m, hm, rfl⟩ := mem_map.mp hmem
      exact ⟨mem_soldTanks senv (h.drawn m hm), h.drawn m hm⟩
    · exact fun hmem ↦ hall tank hmem.2
  calc sumLitres (db.salesOf shift)
      = ((db.salesOf shift).map fun m ↦ -metered fd shift m.tankId).sum := by
        rw [sumLitres, map_congr_left h.litres]
    _ = -(((db.salesOf shift).map Movement.tankId).map (metered fd shift)).sum := by
        rw [List.sum_neg, map_map, map_map]
        rfl
    _ = -((soldTanks senv fd shift).map (metered fd shift)).sum := by
        rw [(hperm.map _).sum_eq, sum_map_filter_ne_zero]

/-- A run keeps the invariant, and when it completes it has posted what it should have. -/
theorem SalesInv.postShiftSales (htog : TanksOpenTogether senv fd shift db) :
    SalesInv fd shift ((postShiftSales senv env fd shift).alone db [] n).2.1 ∧
      ∀ result, ((Stock.postShiftSales senv env fd shift).alone db [] n).1 = .ok result →
        Backfilled senv fd shift db
          ((Stock.postShiftSales senv env fd shift).alone db [] n).2.1 := by
  have hpst : ∀ {db' : StockDb}, SalesInv fd shift db' →
      (∀ tank, metered fd shift tank ≠ 0 → db.HasOpening tank →
        tank ∈ (db'.salesOf shift).map Movement.tankId) → Backfilled senv fd shift db db' :=
    fun h' hall ↦ ⟨fun tank hne hop ↦ mem_map.mp (hall tank hne hop),
      fun hop ↦ h'.total fun tank hne ↦ hall tank hne (hop tank hne)⟩
  refine alone_of_yields (S := schema env) (R := fun out ↦ SalesInv fd shift out.2.1 ∧
      ∀ result, out.1 = .ok result → Backfilled senv fd shift db out.2.1)
    (fun e n' _ ↦ ⟨h, nofun⟩) (yields_postShiftSales (fun hsl n' _ ↦ ⟨h, fun result _ ↦ ?_⟩)
      fun hno ms db' n' hms hmovs _ ↦ ?_)
  · obtain ⟨m, hm, hsl, -⟩ := hsl
    have hmem : m ∈ db.salesOf shift := mem_filter.mpr ⟨hm, decide_eq_true hsl⟩
    exact hpst h fun tank hne _ ↦ h.complete (List.ne_nil_of_mem hmem) tank hne
  · have hnil : db.salesOf shift = [] := List.eq_nil_iff_forall_not_mem.mpr fun m hm ↦
      hno ⟨m, (mem_filter.mp hm).1, of_decide_eq_true (mem_filter.mp hm).2,
        h.posted m hm⟩
    have hsal : db'.salesOf shift = ms := by
      rw [salesOf_append hmovs, hnil, nil_append, filter_eq_self]
      intro m hm
      obtain ⟨line, -, hsel⟩ := exists_sells senv hms hm
      exact decide_eq_true hsel.isSaleOf
    rw [← hsal] at hms
    have hinv := SalesInv.of_sells htog hms
    refine ⟨hinv, fun result _ ↦ hpst hinv fun tank hne hop ↦ ?_⟩
    rw [tankId_of_sells senv hms]
    exact mem_map.mpr ⟨⟨tank, senv.round64 ((metered fd shift tank : ℚ) / 10 ^ 3)⟩,
      mem_openLines.mpr ⟨mem_soldTanks senv hne, hne, hop, rfl⟩, rfl⟩

theorem SalesInv.append (hmovs : db'.movements = db.movements ++ ms)
    (hoth : ∀ m ∈ ms, ¬m.IsSaleOf shift) : SalesInv fd shift db' := by
  have hsal : db'.salesOf shift = db.salesOf shift := by
    rw [salesOf_append hmovs, filter_eq_nil_iff.mpr fun m hm hsl ↦
      hoth m hm (of_decide_eq_true hsl), append_nil]
  obtain ⟨⟨hlit, honce⟩, hpd, hdr, hcom⟩ := h
  rw [← hsal] at hlit honce hpd hdr hcom
  exact ⟨⟨hlit, honce⟩, hpd, hdr, hcom⟩

theorem SalesInv.step {op : SalesOp} (hop : NoPartialRun senv fd shift db op) :
    SalesInv fd shift ((op.prog senv env fd).alone db [] n).2.1 := by
  rcases op with shift' | input
  · by_cases hsh : shift' = shift
    · subst hsh
      exact (h.postShiftSales env (hop rfl)).1
    · refine alone_of_yields (S := schema env) (R := fun out ↦ SalesInv fd shift out.2.1)
        (fun _ _ _ ↦ h) (yields_postShiftSales (fun _ _ _ ↦ h) fun _ ms db' n' hms hmovs _ ↦ ?_)
      refine h.append hmovs fun m hm hsl ↦ hsh ?_
      obtain ⟨line, -, hsel⟩ := exists_sells senv hms hm
      exact some.inj (hsel.isSaleOf.2.1.symm.trans hsl.2.1)
  · refine alone_of_yields (S := schema env) (R := fun out ↦ SalesInv fd shift out.2.1)
      (fun _ _ _ ↦ h) (yields_setOpeningBalance (fun _ _ _ ↦ by trivial) fun m n' _ hins _ ↦ ?_)
    have hmovs : (db.apply (.insertMovement m)).movements = db.movements ++ [m] := rfl
    refine h.append hmovs fun m' hm' hsl ↦ ?_
    obtain rfl := mem_singleton.mp hm'
    have hty : m'.movementType = .opening := insertMovement_movementType hins
    exact absurd (hty.symm.trans hsl.2.2) (by decide)

end SalesInv

end Inv

/-- If every run of the shift is made while all or none of the tanks it sold from are open, then at
any time each tank has at most one sale of the shift, of exactly its litres, and the next run that
completes leaves a sale of every such tank that was open, all litres of the shift once all are
open. -/
theorem salesBackfill_of_noPartialRun (fd : ShiftDb) (shift : Uuid) {db : StockDb} {n : ℕ}
    {s : StockDb × ℕ} (hfresh : db.salesOf shift = [])
    (hrun : Runs (S := schema env) (SalesOp.prog senv env fd) (NoPartialRun senv fd shift)
      (db, n) s) :
    SalesExact fd shift s.1 ∧
      ∀ result s', NoPartialRun senv fd shift s.1 (.postShiftSales shift) →
        (SalesOp.prog senv env fd (.postShiftSales shift)).alone s.1 [] s.2 = (.ok result, s') →
        SalesExact fd shift s'.1 ∧ Backfilled senv fd shift s.1 s'.1 := by
  have hinv : SalesInv fd shift s.1 :=
    Runs.invariant (I := fun s ↦ SalesInv fd shift s.1) hrun (SalesInv.of_nil hfresh)
      fun s op hs hop ↦ hs.step env hop
  refine ⟨hinv.toSalesExact, fun result s' hC hout ↦ ?_⟩
  obtain ⟨hinv', hback⟩ := hinv.postShiftSales env (n := s.2) (hC rfl)
  have hout : (postShiftSales senv env fd shift).alone s.1 [] s.2 = (.ok result, s') := hout
  rw [hout] at hinv' hback
  exact ⟨hinv'.toSalesExact, hback result rfl⟩

/-- A shift that sold 100 litres from tank 1 and 250 litres from tank 2. -/
def soldShift : ShiftDb where
  fixtures := { nozzles := [⟨11, 1, 1, 300000, 3⟩, ⟨12, 1, 2, 300000, 3⟩], assignments := [],
                attendants := [], dips := [] }
  shifts := []
  readings := []
  verifications := []
  lines := [⟨7, 11, 0, 100000, 100000, 300000, 30000000⟩,
    ⟨7, 12, 0, 250000, 250000, 300000, 75000000⟩]

def openTank (tank : Uuid) : SalesOp := .setOpeningBalance ⟨tank, 1000, none⟩

def nextRun (s : StockDb × ℕ) : Except StockError StockResult × StockDb × ℕ :=
  (SalesOp.prog .plain .plain soldShift (.postShiftSales 7)).alone s.1 [] s.2

/-- A run before the tanks are open posts nothing, the run after it posts both. -/
theorem salesBackfill_of_noPartialRun_skipped :
    ∃ s, Runs (S := schema .plain) (SalesOp.prog .plain .plain soldShift)
        (NoPartialRun .plain soldShift 7) (.empty, 1) s ∧ s.1.salesOf 7 = [] ∧
      ∃ result s', nextRun s = (.ok result, s') ∧ Backfilled .plain soldShift 7 s.1 s'.1 ∧
        sumLitres (s'.1.salesOf 7) = -350000 := by
  refine exists_and_imp (fun s ↦ s.1.salesOf 7 = [] ∧
      NoPartialRun .plain soldShift 7 s.1 (.postShiftSales 7) ∧ (nextRun s).1.isOk = true ∧
      sumLitres ((nextRun s).2.1.salesOf 7) = -350000)
    (exists_of_runAll [.postShiftSales 7, openTank 1, openTank 2] (by decide +kernel)) ?_
  rintro s hrun ⟨hsal, hC, hok, hsum⟩
  rcases hout : nextRun s with ⟨_ | result, s'⟩ <;> rw [hout] at hok hsum
  · cases hok
  · have hback := (salesBackfill_of_noPartialRun .plain .plain soldShift 7 rfl hrun).2 result s'
      hC hout
    exact ⟨hsal, result, s', rfl, hback.2, hsum⟩

/-- Tank 2 is opened after a run that has posted tank 1. The next run completes with every tank
open, and does not post tank 2. -/
theorem not_backfilled_of_partialRun :
    ∃ s, Runs (S := schema .plain) (SalesOp.prog .plain .plain soldShift) (fun _ _ ↦ True)
        (.empty, 1) s ∧
      (∀ tank, metered soldShift 7 tank ≠ 0 → s.1.HasOpening tank) ∧
      nextRun s = (.ok (.sales [] []), (nextRun s).2) ∧
      ¬Backfilled .plain soldShift 7 s.1 (nextRun s).2.1 := by
  refine exists_and_imp (fun s ↦ (∀ tank ∈ soldTanks .plain soldShift 7, s.1.HasOpening tank) ∧
      (nextRun s).1.toOption = some (.sales [] []) ∧
      ∀ m ∈ (nextRun s).2.1.salesOf 7, m.tankId ≠ 2)
    (exists_of_runAll [openTank 1, .postShiftSales 7, openTank 2] (by decide +kernel)) ?_
  rintro s _ ⟨hop, hres, hnot⟩
  refine ⟨fun tank hne ↦ hop tank (mem_soldTanks .plain hne), ?_, fun hback ↦ ?_⟩
  · rcases hout : nextRun s with ⟨_ | result, s'⟩ <;> rw [hout] at hres
    · cases hres
    · rw [some.inj hres]
  · obtain ⟨m, hm, htk⟩ := hback.posted 2 (by decide) (hop 2 (by decide))
    exact hnot m hm htk

end FuelGrid.Stock
