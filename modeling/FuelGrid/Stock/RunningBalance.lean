import FuelGrid.Sql.RelyGuarantee
import FuelGrid.Stock.Ledger

/-!
# The running balance

Every writer of the ledger computes `balance_after` in its insert, as the sum of the tank's rows
plus the new litres. This file asks when the stored figure is the sum of the stored litres up to the
row, under every interleaving of transactions.
-/

namespace FuelGrid.Stock

open Sql

variable (env : Env) {l : List Movement} {input : PostInput} {m : Movement} {p : Txn env}
  {id tank : Uuid}

/-! ## One insert

`litres` stores the rounded input, while `balance_after` rounds the sum of the ledger and the
unrounded input, and rounding is away from zero: the two agree except when the input is half-way
between two thousandths and the ledger sum carries it across zero (`balanceAfter_eq_iff`). An
opening balance of `0.0005` on a tank adjusted to `-1.000` beforehand is such an input. -/

/-- The stored balance is the ledger sum plus the stored litres exactly when the rounding does not
move a tie across zero. -/
theorem balanceAfter_eq_iff {db : StockDb} {n : ℕ} (h : insertMovement db n input = .ok m) :
    m.balanceAfter = db.currentBalance input.tankId + m.litres ↔
      ¬CrossesAtTie (db.currentBalance input.tankId) (input.litres * 10 ^ 3) := by
  obtain ⟨-, hl, hb, -⟩ := insertMovement_eq_ok h
  have hsca : ((db.currentBalance input.tankId : ℚ) / 10 ^ 3 + input.litres) * 10 ^ 3
      = (db.currentBalance input.tankId : ℚ) + input.litres * 10 ^ 3 := by ring
  rw [(store_eq_some hl).1, (store_eq_some hb).1, hsca]
  exact roundHalfAway_intCast_add_iff _ _

/-- Each row's `balance_after` is the sum of the litres up to and including the row. -/
def Running (l : List Movement) : Prop :=
  ∀ m ∈ l, m.balanceAfter = sumLitres (l.filter (·.seq ≤ m.seq))

/-- Every movement of the database carries the right balance. -/
def StockDb.RunningBalance (db : StockDb) : Prop :=
  ∀ m ∈ db.movements, m.balanceAfter = sumLitres ((db.ledger m.tankId).filter (·.seq ≤ m.seq))
  deriving Decidable

/-- A ledger whose balances are right and whose seqs were all drawn before `n`. -/
structure RunningBelow (n : ℕ) (l : List Movement) : Prop where
  below : ∀ m ∈ l, m.seq < n
  running : Running l

theorem RunningBelow.mono {n n' : ℕ} (h : RunningBelow n l) (hn : n ≤ n') : RunningBelow n' l :=
  ⟨fun m hm ↦ (h.below m hm).trans_le hn, h.running⟩

theorem RunningBelow.append {n : ℕ} (h : RunningBelow n l) (hseq : m.seq = n)
    (hbal : m.balanceAfter = sumLitres l + m.litres) : RunningBelow (n + 1) (l ++ [m]) := by
  have hnew : ∀ m' ∈ l, ¬m.seq ≤ m'.seq := fun m' hm' ↦ by
    have := h.below m' hm'
    omega
  have hall : l.filter (·.seq ≤ m.seq) = l := by
    rw [filter_eq_self]
    intro m' hm'
    have := h.below m' hm'
    simp only [decide_eq_true_eq]
    omega
  constructor
  · intro m' hm'
    rcases mem_append.mp hm' with hold | hm'
    · exact (h.below m' hold).trans (lt_succ_self n)
    · obtain rfl := mem_singleton.mp hm'
      omega
  · intro m' hm'
    rw [filter_append, sumLitres_append]
    rcases mem_append.mp hm' with hold | hm'
    · simp [h.running m' hold, hnew m' hold]
    · obtain rfl := mem_singleton.mp hm'
      simp [hall, hbal]

private theorem runningBalance_of_frozen {db : StockDb}
    (h : ∀ tank, Running (db.frozenLedger tank)) :
    db.RunningBalance := fun m hm ↦ by
  have hfro := h m.tankId m.frozen (mem_map_of_mem (mem_filter.mpr ⟨hm, by simp⟩))
  rwa [StockDb.frozenLedger, filter_map, sumLitres_map_frozen] at hfro

/-! ## The lock discipline

A row is inserted only under the lock of its tank (`callAll_guarded`), so between the insert and the
commit nobody else changes the tank's ledger. -/

/-- A row may be inserted under the lock of its tank only. -/
def insertLocks : Query → Set LockKey
  | .insertMovement input => {tankKey env input.tankId}
  | _ => ∅

/-- The program inserts under the locks it needs, if it holds those in `held`. -/
abbrev Disciplined (held : Set LockKey) (p : Txn env) : Prop :=
  Prog.Each (S := schema env) (fun held q ↦ insertLocks env q ⊆ held) held p

variable {env} {held held' : Set LockKey} {k : Except StockError Movement → Txn env}

theorem Disciplined.mono (h : Disciplined env held p) (hsub : held ⊆ held') :
    Disciplined env held' p :=
  Prog.Each.mono (fun hH hq ↦ hq.trans hH) h hsub

private theorem insertRow_disciplined (input : PostInput) (hlock : tankKey env input.tankId ∈ held)
    (hk : ∀ r, Disciplined env held (k r)) : Disciplined env held (insertRow env input k) :=
  ⟨Set.singleton_subset_iff.mpr hlock, fun _ ↦ hk _⟩

section Disciplined

variable (hk : ∀ r, Disciplined env held (k r))

include hk

private theorem postMovement_disciplined : Disciplined env held (postMovement env input k) :=
  each_postMovement (empty_subset _) (Set.singleton_subset_iff.mpr (mem_insert _ _))
    fun r ↦ (hk r).mono (subset_insert _ _)

private theorem reverseMovement_disciplined : Disciplined env held (reverseMovement env id k) := by
  have hk' : ∀ r, Disciplined env (insert (.movement id) held) (k r) :=
    fun r ↦ (hk r).mono (subset_insert _ _)
  refine ⟨empty_subset _, fun found ↦ ?_⟩
  cases found with
  | true =>
    refine ⟨empty_subset _, fun orig ↦ ?_⟩
    cases orig with
    | some orig => exact postMovement_disciplined hk'
    | none =>
      refine ⟨empty_subset _, fun m ↦ ?_⟩
      cases m <;> exact hk' _
  | false =>
    refine ⟨empty_subset _, fun m ↦ ?_⟩
    cases m <;> exact hk _

end Disciplined

private theorem postTransfer_disciplined {t : Transfer} {k : Except StockError Transfer → Txn env}
    (hk : ∀ r, Disciplined env held (k r)) : Disciplined env held (postTransfer env t k) := by
  obtain ⟨hfrom, hto⟩ := Set.pair_subset_iff.mp (tankKeys_mem env t held)
  set lo := LockKey.advisory (min (env.hash t.fromTankId) (env.hash t.toTankId))
  set hi := LockKey.advisory (max (env.hash t.fromTankId) (env.hash t.toTankId))
  have hk' : ∀ r, Disciplined env (insert hi (insert lo held)) (k r) := fun r ↦
    (hk r).mono ((subset_insert _ _).trans (subset_insert _ _))
  refine ⟨empty_subset _, fun sufficient ↦ ?_⟩
  cases sufficient with
  | false => exact hk' _
  | true =>
    simp only [↓reduceIte]
    refine insertRow_disciplined (t.leg t.fromTankId (-t.litres)) hfrom fun out ↦ ?_
    cases out with
    | error e => exact hk' _
    | ok out =>
      refine insertRow_disciplined (t.leg t.toTankId t.litres) hto fun inn ↦ ?_
      cases inn with
      | error e => exact hk' _
      | ok inn =>
        refine ⟨empty_subset _, fun t' ↦ ?_⟩
        cases t' <;> exact hk' _

private theorem receiveTransfer_disciplined {k : Except StockError Transfer → Txn env}
    (hk : ∀ r, Disciplined env held (k r)) : Disciplined env held (receiveTransfer env id k) := by
  have hk' : ∀ r, Disciplined env (insert (.transfer id) held) (k r) :=
    fun r ↦ (hk r).mono (subset_insert _ _)
  refine ⟨empty_subset _, fun found ↦ ?_⟩
  cases found with
  | false => exact hk _
  | true =>
    refine ⟨empty_subset _, fun t ↦ ?_⟩
    cases t with
    | none => exact hk' _
    | some t =>
      dsimp only
      split
      · exact hk' _
      · refine ⟨empty_subset _, fun fromProduct ↦ ?_⟩
        cases fromProduct with
        | none => exact hk' _
        | some fromProduct =>
          refine ⟨empty_subset _, fun toProduct ↦ ?_⟩
          cases toProduct with
          | none => exact hk' _
          | some toProduct =>
            dsimp only
            split
            · exact hk' _
            · exact postTransfer_disciplined hk'

theorem callAll_guarded (calls : List Call) : Disciplined env held (callAll env calls) := by
  induction calls with
  | nil => trivial
  | cons c calls ih =>
    cases c with
    | postMovement input => exact postMovement_disciplined (each_orRollback fun _ ↦ ih)
    | setOpeningBalance input =>
      exact each_setOpeningBalance (fun _ ↦ empty_subset _)
        (Set.singleton_subset_iff.mpr (mem_insert _ _)) fun _ r hsub ↦
          Disciplined.mono (each_orRollback (fun _ ↦ ih) r) hsub
    | reverseMovement id => exact reverseMovement_disciplined (each_orRollback fun _ ↦ ih)
    | postWriteOff tank recon litres =>
      exact insertRow_disciplined _ (mem_insert _ _) fun r ↦
        Disciplined.mono (each_orRollback (fun _ ↦ ih) r) (subset_insert _ _)
    | receiveTransfer id => exact receiveTransfer_disciplined (each_orRollback fun _ ↦ ih)

/-! ## Interleavings

While a transaction holds the lock of a tank, the others leave the tank's ledger alone, up to
reversal annotations. -/

variable (env)

/-- The next statement of the transaction, if it is an insert, does not move a tie across zero. -/
def NoTieCrossing (l : Local (schema env)) (db : StockDb) : Prop :=
  ∀ input ∈ nextInsert env l.prog,
    ¬CrossesAtTie ((replay (S := schema env) db l.log).currentBalance input.tankId)
      (input.litres * 10 ^ 3)
  deriving Decidable

def runningContract : Contract (schema env) where
  inv db n := ∀ tank, RunningBelow n (db.frozenLedger tank)
  rely l db db' := ∀ tank, tankKey env tank ∈ l.held → db'.frozenLedger tank = db.frozenLedger tank
  cond l db _ := NoTieCrossing env l db
  guar l _ _ := ∀ m, Write.insertMovement m ∈ l.log → tankKey env m.tankId ∈ l.held
  post _ _ _ := True
  inv_tick h tank := (h tank).mono (le_succ _)
  rely_refl _ _ _ _ := rfl
  rely_trans h h' tank hk := (h' tank hk).trans (h tank hk)

/-- The log so far: every row was inserted under its lock, and under each lock held the ledger the
transaction sees is right. -/
structure LogOk (held : Set LockKey) (log : List Write) (db : StockDb) (n : ℕ) : Prop where
  locked : ∀ m, Write.insertMovement m ∈ log → tankKey env m.tankId ∈ held
  running : ∀ tank, tankKey env tank ∈ held →
    RunningBelow n ((replay (S := schema env) db log).frozenLedger tank)

variable {env} {log : List Write} {db db' : StockDb} {n n' : ℕ}

section LogOk

variable (h : LogOk env held log db n)

include h

/-- Without the lock of a tank nothing has been inserted into its ledger. -/
theorem LogOk.inserted_eq_nil (hk : tankKey env tank ∉ held) : inserted tank log = [] := by
  rw [List.eq_nil_iff_forall_not_mem]
  intro m hm
  obtain ⟨hin, rfl⟩ := mem_inserted.mp hm
  exact hk (h.locked m hin)

theorem LogOk.mono (hn : n ≤ n')
    (hr : ∀ tank, tankKey env tank ∈ held → db'.frozenLedger tank = db.frozenLedger tank) :
    LogOk env held log db' n' where
  locked := h.locked
  running tank hk := by
    rw [frozenLedger_replay, hr tank hk, ← frozenLedger_replay env]
    exact (h.running tank hk).mono hn

theorem LogOk.lock (k : LockKey) (hinv : (runningContract env).inv db n) :
    LogOk env (insert k held) log db n where
  locked m hm := .inr (h.locked m hm)
  running tank _ := by
    by_cases hk : tankKey env tank ∈ held
    · exact h.running tank hk
    · rw [frozenLedger_replay, h.inserted_eq_nil hk, map_nil, append_nil]
      exact hinv tank

/-- A statement executed under its locks extends the log properly; an insert does so because the
run condition excludes the tie. -/
theorem LogOk.query {q : Query} {next : Reply q → Txn env} (hloc : insertLocks env q ⊆ held)
    (hc : NoTieCrossing env ⟨held, log, .query q next⟩ db) :
    LogOk env held (log ++ (exec env q db (replay (S := schema env) db log) n).1) db (n + 1) := by
  set view := replay (S := schema env) db log with hvw
  have hins : ∀ m, Write.insertMovement m ∈ (exec env q db view n).1 →
      ∃ input, q = .insertMovement input ∧ insertMovement view n input = .ok m :=
    fun m ↦ insertMovement_of_mem_exec env
  constructor
  · intro m hm
    rcases mem_append.mp hm with hold | hnew
    · exact h.locked m hold
    · obtain ⟨input, rfl, hok⟩ := hins m hnew
      rw [(insertMovement_eq_ok hok).1]
      exact hloc rfl
  · intro tank hk
    rw [replay_append, frozenLedger_replay env, ← hvw]
    rcases hnew : inserted tank (exec env q db view n).1 with _ | ⟨m, rest⟩
    · rw [map_nil, append_nil]
      exact (h.running tank hk).mono (le_succ n)
    · obtain ⟨hm, rfl⟩ := mem_inserted.mp (hnew ▸ mem_cons_self)
      obtain ⟨input, rfl, hok⟩ := hins m hm
      obtain ⟨hrow, -⟩ := insertMovement_eq_ok hok
      obtain rfl : rest = [] := by
        have hone : (exec env (.insertMovement input) db view n).1 = [.insertMovement m] := by
          simp only [exec, hok, logged]
        rw [hone] at hnew
        simpa [inserted] using hnew.symm
      have htk : m.tankId = input.tankId := by rw [hrow]; rfl
      have hbal := (balanceAfter_eq_iff hok).mpr (hc input rfl)
      refine (h.running m.tankId hk).append (m := m.frozen) (by rw [hrow]; rfl) ?_
      rw [sumLitres_frozenLedger, htk]
      exact hbal

end LogOk

private theorem safe_of_disciplined (hp : Disciplined env held p) (h : LogOk env held log db n) :
    (runningContract env).Safe p held log db n := by
  induction p generalizing held log db n with
  | commit a =>
    intro db' n' hn hr hinv hc
    have h' := h.mono hn hr
    refine ⟨h'.locked, fun tank ↦ ?_, trivial⟩
    by_cases hk : tankKey env tank ∈ held
    · exact h'.running tank hk
    · rw [frozenLedger_replay, h'.inserted_eq_nil hk, map_nil, append_nil]
      exact hinv tank
  | rollback e => trivial
  | lock k next ih =>
    intro db' n' hn hr hinv hc
    exact ih hp ((h.mono hn hr).lock k hinv)
  | query q next ih =>
    intro db' n' hn hr hinv hc
    exact ih _ (hp.2 _) ((h.mono hn hr).query hp.1 hc)

/-- A commit changes only ledgers whose lock it holds, so it does not touch those of the others. -/
theorem runningContract_suits {T : Type} :
    Contract.Suits (T := T) (runningContract env) (State.Acting (NoTieCrossing env)) where
  cond hC hp := State.Acting.of_prog hC hp
  compat {s t a u p} _ _ _ hguar hne _ tank hk := by
    have hno : inserted tank (s.log t) = [] := by
      rw [List.eq_nil_iff_forall_not_mem]
      intro m hm
      obtain ⟨hin, rfl⟩ := mem_inserted.mp hm
      exact hne (eq_of_held rfl hk (hguar m hin))
    rw [State.view, frozenLedger_replay, hno, map_nil, append_nil]

/-- In every interleaving of transactions that post, reverse, write off and transfer stock, if no
insert moves a half-unit tie across zero then every committed `balance_after` is the sum of the
tank's stored litres up to the row. -/
theorem runningBalance_of_noTieCrossing {T : Type} [DecidableEq T] (calls : T → List Call)
    {db₀ : StockDb} (hdb : db₀.movements = []) {s : State (schema env) T}
    (h : Reach (State.Acting (NoTieCrossing env))
      (start env db₀ fun t ↦ callAll env (calls t)) s) :
    s.db.RunningBalance := by
  have hemp : ∀ tank, db₀.frozenLedger tank = [] := fun tank ↦ by
    simp [StockDb.frozenLedger, StockDb.ledger, hdb]
  have hinv : (runningContract env).inv db₀ 1 := fun tank ↦ by
    rw [hemp tank]
    exact ⟨by simp, by simp [Running]⟩
  have hsafe : ∀ t, (runningContract env).Safe (callAll env (calls t)) ∅ [] db₀ 1 := fun t ↦
    safe_of_disciplined (callAll_guarded _) ⟨by simp, by simp⟩
  have hs := (Contract.sound runningContract_suits hinv hsafe h).1
  exact runningBalance_of_frozen fun tank ↦ (hs tank).running

/-- A tank is adjusted to minus one litre, then opened with half a thousandth. -/
def tieCalls (litres : ℚ) : Bool → List Call
  | false => [.postMovement ⟨7, .adjustment, some .adjustment, none, -1, none⟩]
  | true => [.setOpeningBalance ⟨7, litres, some .opening⟩]

/-- One transaction after the other. -/
def tieActs : List (Act Bool) := turns [(false, 3), (true, 4)]

/-- The opening is stored as 0.001 and its balance as -1.000. -/
theorem not_runningBalance_of_tie :
    ∃ s : State (schema .plain) Bool,
      Reach (fun _ _ ↦ True) (start .plain .empty fun t ↦ callAll .plain (tieCalls 0.0005 t)) s ∧
        ¬s.db.RunningBalance := by
  have hrun : ((start .plain .empty fun t ↦ callAll .plain (tieCalls 0.0005 t)).runs
      (fun _ _ ↦ True) tieActs).map (fun s ↦ decide s.db.RunningBalance) = some false := by
    decide +kernel
  obtain ⟨s, hs, hbad⟩ := map_eq_some_iff.mp hrun
  exact ⟨s, .of_runs hs, of_decide_eq_false hbad⟩

/-- With an opening of a whole thousandth the same run is admitted and commits both rows. -/
theorem runningBalance_of_noTieCrossing_whole :
    ∃ s : State (schema .plain) Bool,
      Reach (State.Acting (NoTieCrossing .plain))
        (start .plain .empty fun t ↦ callAll .plain (tieCalls 0.001 t)) s ∧
      s.db.movements.length = 2 ∧ s.db.RunningBalance := by
  have hrun : ((start .plain .empty fun t ↦ callAll .plain (tieCalls 0.001 t)).runs
      (State.Acting (NoTieCrossing .plain)) tieActs).map (fun s ↦ s.db.movements.length)
        = some 2 := by
    decide +kernel
  obtain ⟨s, hs, hlen⟩ := map_eq_some_iff.mp hrun
  exact ⟨s, .of_runs hs, hlen, runningBalance_of_noTieCrossing _ rfl (.of_runs hs)⟩

end FuelGrid.Stock
