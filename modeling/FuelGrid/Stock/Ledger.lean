import FuelGrid.Stock.Schema

/-!
# Ledger transactions

The functions that write the stock ledger: `PostMovement`, `SetOpeningBalance` and `ReverseMovement`
of the inventory repository, `PostWriteOff` of the reconciliation repository and `ReceiveTransfer`
of the enterprise repository.

Each is a program with a continuation that receives its result, so that a caller can go on in the
same transaction. All four writers take the advisory lock of the tank before they insert a row.
-/

namespace FuelGrid.Stock

open Sql

variable (env : Env) {α : Type}

/-- A transaction on the stock tables. -/
abbrev Txn := Prog (schema env)

/-- Go on with the value, or roll back with the error. -/
def orRollback {α : Type} (k : α → Txn env) : Except StockError α → Txn env
  | .ok a => k a
  | .error e => .rollback e

def tankKey (tank : Uuid) : LockKey := .advisory (env.hash tank)

def insertRow (input : PostInput) (k : Except StockError Movement → Txn env) : Txn env :=
  .query (.insertMovement input) fun r ↦ k (r.mapError .pg)

/-! ## The inventory repository -/

/-- Whether a movement type may only post after the tank has an opening balance. -/
def requiresOpening : MovementType → Bool
  | .delivery | .sales | .transfer => true
  | .opening | .adjustment => false

def postMovement (input : PostInput) (k : Except StockError Movement → Txn env) : Txn env :=
  .lock (tankKey env input.tankId) <|
    if requiresOpening input.movementType then
      .query (.hasOpening input.tankId) fun has ↦
        if has then insertRow env input k else k (.error .errNoOpeningBalance)
    else insertRow env input k

/-- The data needed to seed a tank's opening balance. -/
structure OpeningInput where
  tankId : Uuid
  litres : ℚ
  sourceRefType : Option SourceRefType

/-- The movement `SetOpeningBalance` posts. -/
def OpeningInput.toPost (input : OpeningInput) : PostInput where
  tankId := input.tankId
  movementType := .opening
  sourceRefType := some (input.sourceRefType.getD .opening)
  sourceRefId := none
  litres := input.litres
  supersedesId := none

def setOpeningBalance (input : OpeningInput) (k : Except StockError Movement → Txn env) :
    Txn env :=
  .query (.hasOpening input.tankId) fun has ↦
    if has then k (.error .errOpeningExists)
    else postMovement env input.toPost fun r ↦
      if r = .error (.pg .uniqueViolation) then k (.error .errOpeningExists) else k r

/-- The contra entry of a reversed movement: `negateDecimal` of its litres, and a pointer back. -/
def Movement.contra (orig : Movement) : PostInput where
  tankId := orig.tankId
  movementType := orig.movementType
  sourceRefType := some .correction
  sourceRefId := some orig.id
  litres := -((orig.litres : ℚ) / 10 ^ 3)
  supersedesId := some orig.id

def reverseMovement (id : Uuid) (k : Except StockError Movement → Txn env) : Txn env :=
  -- no row was updated: the movement does not exist or is already reversed
  let refused : Txn env := .query (.getMovement id) fun
    | none => k (.error .errMovementNotFound)
    | some _ => k (.error .errAlreadyReversed)
  .query (.findPosted id) fun found ↦
    if found then
      .lock (.movement id) <| .query (.markReversed id) fun
        | some orig => postMovement env orig.contra k
        | none => refused
    else refused

/-! ## The other two writers -/

/-- The movement `PostWriteOff` inserts. -/
def writeOffInput (tank recon : Uuid) (litres : ℚ) : PostInput where
  tankId := tank
  movementType := .adjustment
  sourceRefType := some .reconciliation
  sourceRefId := some recon
  litres := litres
  supersedesId := none

def postWriteOff (tank recon : Uuid) (litres : ℚ) (k : Except StockError Movement → Txn env) :
    Txn env :=
  .lock (tankKey env tank) <| insertRow env (writeOffInput tank recon litres) k

def Transfer.leg (t : Transfer) (tank : Uuid) (litres : ℤ) : PostInput where
  tankId := tank
  movementType := .transfer
  sourceRefType := some .transfer
  sourceRefId := some t.id
  litres := (litres : ℚ) / 10 ^ 3
  supersedesId := none

/-- `ReceiveTransfer` after the order has been read and checked: lock both tanks in the order of
their keys, check the stock and post the two legs. -/
def postTransfer (t : Transfer) (k : Except StockError Transfer → Txn env) : Txn env :=
  .lock (.advisory (min (env.hash t.fromTankId) (env.hash t.toTankId))) <|
  .lock (.advisory (max (env.hash t.fromTankId) (env.hash t.toTankId))) <|
  .query (.sufficientStock t.fromTankId t.litres) fun sufficient ↦
    if sufficient then
      insertRow env (t.leg t.fromTankId (-t.litres)) fun
        | .error e => k (.error e)
        | .ok out => insertRow env (t.leg t.toTankId t.litres) fun
          | .error e => k (.error e)
          | .ok inn => .query (.receiveTransfer t.id out.id inn.id) fun
            | none => k (.error .errNoRows)
            | some t' => k (.ok t')
    else k (.error .errInsufficientStock)

/-- Both tank keys are among the two that `ReceiveTransfer` locks, in whichever order. -/
theorem tankKeys_mem (t : Transfer) (held : Set LockKey) :
    ({tankKey env t.fromTankId, tankKey env t.toTankId} : Set LockKey) ⊆
      insert (.advisory (max (env.hash t.fromTankId) (env.hash t.toTankId)))
        (insert (.advisory (min (env.hash t.fromTankId) (env.hash t.toTankId))) held) := by
  rw [Set.pair_subset_iff]
  rcases le_total (env.hash t.fromTankId) (env.hash t.toTankId) with hle | hle
  · rw [max_eq_right hle, min_eq_left hle]
    exact ⟨.inr (.inl rfl), .inl rfl⟩
  · rw [max_eq_left hle, min_eq_right hle]
    exact ⟨.inl rfl, .inr (.inl rfl)⟩

def receiveTransfer (id : Uuid) (k : Except StockError Transfer → Txn env) : Txn env :=
  .query (.findTransfer id) fun found ↦
    if found then
      .lock (.transfer id) <| .query (.lockedTransfer id) fun
        | none => k (.error .errNotFound)
        | some t =>
          if t.status ≠ .approved ∧ t.status ≠ .dispatched then k (.error .errBadState)
          else .query (.tankProduct t.fromTankId) fun
            | none => k (.error .errNoRows)
            | some fromProduct => .query (.tankProduct t.toTankId) fun
              | none => k (.error .errNoRows)
              | some toProduct =>
                if fromProduct ≠ t.productId ∨ toProduct ≠ t.productId then
                  k (.error .errProductMismatch)
                else postTransfer env t k
    else k (.error .errNotFound)

/-! ## Transactions of several calls -/

/-- One call of a ledger function. -/
inductive Call where
  | postMovement (input : PostInput)
  | setOpeningBalance (input : OpeningInput)
  | reverseMovement (id : Uuid)
  | postWriteOff (tank recon : Uuid) (litres : ℚ)
  | receiveTransfer (id : Uuid)

/-- The program of a call: the transaction is rolled back when the call fails. -/
def Call.prog (next : Txn env) : Call → Txn env
  | .postMovement input => Stock.postMovement env input (orRollback env fun _ ↦ next)
  | .setOpeningBalance input => Stock.setOpeningBalance env input (orRollback env fun _ ↦ next)
  | .reverseMovement id => Stock.reverseMovement env id (orRollback env fun _ ↦ next)
  | .postWriteOff tank recon litres =>
    Stock.postWriteOff env tank recon litres (orRollback env fun _ ↦ next)
  | .receiveTransfer id => Stock.receiveTransfer env id (orRollback env fun _ ↦ next)

/-- A transaction that makes the calls in order and commits. -/
def callAll (calls : List Call) : Txn env :=
  calls.foldr (fun c next ↦ c.prog env next) (.commit .done)

/-- The row the transaction inserts next, if its next statement is an insert. -/
def nextInsert : Txn env → Option PostInput
  | .query (.insertMovement input) _ => some input
  | _ => none

/-! ### What the posting functions execute -/

section Each

variable {env} {P : Set LockKey → Query → Prop} {held : Set LockKey}
  {k : Except StockError Movement → Txn env}

theorem each_orRollback {k : α → Txn env} (hk : ∀ a, Prog.Each (S := schema env) P held (k a))
    (r : Except StockError α) : Prog.Each (S := schema env) P held (orRollback env k r) := by
  cases r with
  | ok a => exact hk a
  | error e => trivial

/-- `PostMovement` reads the opening and inserts the row, both under the lock of the tank. -/
theorem each_postMovement {input : PostInput}
    (hrd : P (insert (tankKey env input.tankId) held) (.hasOpening input.tankId))
    (hins : P (insert (tankKey env input.tankId) held) (.insertMovement input))
    (hk : ∀ r, Prog.Each (S := schema env) P (insert (tankKey env input.tankId) held) (k r)) :
    Prog.Each (S := schema env) P held (postMovement env input k) := by
  unfold postMovement
  change Prog.Each (S := schema env) P (insert _ held) _
  split
  · refine ⟨hrd, fun has ↦ ?_⟩
    cases has with
    | true => exact ⟨hins, fun _ ↦ hk _⟩
    | false => exact hk _
  · exact ⟨hins, fun _ ↦ hk _⟩

theorem each_setOpeningBalance {input : OpeningInput}
    (hrd : ∀ H, P H (.hasOpening input.tankId))
    (hins : P (insert (tankKey env input.tankId) held) (.insertMovement input.toPost))
    (hk : ∀ H r, held ⊆ H → Prog.Each (S := schema env) P H (k r)) :
    Prog.Each (S := schema env) P held (setOpeningBalance env input k) := by
  refine ⟨hrd held, fun has ↦ ?_⟩
  cases has with
  | true => exact hk _ _ le_rfl
  | false =>
    refine each_postMovement (hrd _) hins fun r ↦ ?_
    split
    · exact hk _ _ (subset_insert _ _)
    · exact hk _ _ (subset_insert _ _)

end Each

/-- The machine before its first step, with the sequence behind `seq` at its first value. -/
def start {T : Type} (db : StockDb) (prog : T → Txn env) : State (schema env) T :=
  State.init db 1 prog

/-! ## The ledger under writes

A reversal changes the status of a row and nothing else, so everything about litres, balances and
order is a property of the rows without their status. -/

/-- The row without its status annotation. -/
def Movement.frozen (m : Movement) : Movement := { m with status := .posted }

@[simp] theorem Movement.frozen_seq (m : Movement) : m.frozen.seq = m.seq := rfl
@[simp] theorem Movement.frozen_litres (m : Movement) : m.frozen.litres = m.litres := rfl
@[simp] theorem Movement.frozen_balanceAfter (m : Movement) :
    m.frozen.balanceAfter = m.balanceAfter := rfl
@[simp] theorem Movement.frozen_tankId (m : Movement) : m.frozen.tankId = m.tankId := rfl
@[simp] theorem Movement.frozen_movementType (m : Movement) :
    m.frozen.movementType = m.movementType := rfl

@[simp] theorem Movement.frozen_reverse (id : Uuid) (m : Movement) :
    (m.reverse id).frozen = m.frozen := by
  unfold Movement.reverse Movement.frozen
  split <;> rfl

@[simp] theorem Movement.reverse_tankId (id : Uuid) (m : Movement) :
    (m.reverse id).tankId = m.tankId := by unfold Movement.reverse; split <;> rfl
@[simp] theorem Movement.reverse_seq (id : Uuid) (m : Movement) :
    (m.reverse id).seq = m.seq := by unfold Movement.reverse; split <;> rfl
@[simp] theorem Movement.reverse_litres (id : Uuid) (m : Movement) :
    (m.reverse id).litres = m.litres := by unfold Movement.reverse; split <;> rfl
@[simp] theorem Movement.reverse_movementType (id : Uuid) (m : Movement) :
    (m.reverse id).movementType = m.movementType := by unfold Movement.reverse; split <;> rfl

theorem Movement.isOpening_of_reverse {id : Uuid} {m : Movement} (h : (m.reverse id).IsOpening) :
    m.IsOpening := by
  unfold Movement.reverse at h
  split at h
  · obtain ⟨-, hst, -⟩ := h
    cases hst
  · exact h

@[simp] theorem sumLitres_map_frozen (l : List Movement) :
    sumLitres (l.map Movement.frozen) = sumLitres l := by
  simp [sumLitres, comp_def]

/-- The rows of a tank without their status. -/
def StockDb.frozenLedger (db : StockDb) (tank : Uuid) : List Movement :=
  (db.ledger tank).map Movement.frozen

@[simp] theorem sumLitres_frozenLedger (db : StockDb) (tank : Uuid) :
    sumLitres (db.frozenLedger tank) = db.currentBalance tank :=
  sumLitres_map_frozen _

def inserted (tank : Uuid) : List Write → List Movement
  | [] => []
  | .insertMovement m :: ws => if m.tankId = tank then m :: inserted tank ws else inserted tank ws
  | _ :: ws => inserted tank ws

@[simp] theorem inserted_append (tank : Uuid) (ws vs : List Write) :
    inserted tank (ws ++ vs) = inserted tank ws ++ inserted tank vs := by
  induction ws with
  | nil => rfl
  | cons w ws ih =>
    cases w with
    | insertMovement m =>
      by_cases hm : m.tankId = tank <;> simp [inserted, hm, ih]
    | markReversed id => simpa [inserted] using ih
    | receiveTransfer id o i => simpa [inserted] using ih
    | putReconciliation r => simpa [inserted] using ih

theorem mem_inserted {tank : Uuid} {ws : List Write} {m : Movement} :
    m ∈ inserted tank ws ↔ .insertMovement m ∈ ws ∧ m.tankId = tank := by
  induction ws with
  | nil => simp [inserted]
  | cons w ws ih =>
    cases w with
    | insertMovement m' =>
      by_cases hm : m'.tankId = tank
      · simp only [inserted, if_pos hm, mem_cons, ih, Write.insertMovement.injEq]
        constructor
        · rintro (rfl | ⟨hin, ht⟩)
          · exact ⟨.inl rfl, hm⟩
          · exact ⟨.inr hin, ht⟩
        · rintro ⟨rfl | hin, ht⟩
          · exact .inl rfl
          · exact .inr ⟨hin, ht⟩
      · simp only [inserted, if_neg hm, mem_cons, ih, Write.insertMovement.injEq]
        constructor
        · rintro ⟨hin, ht⟩
          exact ⟨.inr hin, ht⟩
        · rintro ⟨rfl | hin, ht⟩
          · exact absurd ht hm
          · exact ⟨hin, ht⟩
    | markReversed id => simp [inserted, ih]
    | receiveTransfer id o i => simp [inserted, ih]
    | putReconciliation r => simp [inserted, ih]

theorem ledger_markReversed (db : StockDb) (id tank : Uuid) :
    (db.apply (.markReversed id)).ledger tank = (db.ledger tank).map (Movement.reverse id) := by
  simp [StockDb.ledger, StockDb.apply, filter_map, comp_def]

private theorem frozenLedger_apply (db : StockDb) (w : Write) (tank : Uuid) :
    (db.apply w).frozenLedger tank
      = db.frozenLedger tank ++ (inserted tank [w]).map Movement.frozen := by
  cases w with
  | insertMovement m =>
    by_cases hm : m.tankId = tank <;>
      simp [StockDb.frozenLedger, StockDb.ledger, StockDb.apply, inserted, hm]
  | markReversed id =>
    simp [StockDb.frozenLedger, ledger_markReversed, inserted, comp_def]
  | receiveTransfer id o i => simp [StockDb.frozenLedger, StockDb.ledger, StockDb.apply, inserted]
  | putReconciliation r => simp [StockDb.frozenLedger, StockDb.ledger, StockDb.apply, inserted]

/-- Replaying a log appends the rows it inserts, tank by tank. -/
theorem frozenLedger_replay (db : StockDb) (log : List Write) (tank : Uuid) :
    (replay (S := schema env) db log).frozenLedger tank
      = db.frozenLedger tank ++ (inserted tank log).map Movement.frozen := by
  induction log generalizing db with
  | nil => rw [replay_nil, inserted, map_nil, append_nil]
  | cons w ws ih =>
    rw [replay_cons, ih, frozenLedger_apply, append_assoc, ← map_append,
      ← inserted_append, singleton_append]

/-! ## Inserted rows

A row's `seq` is drawn under the lock of the tank, and the lock is held to the end of the
transaction, which is why the rows of one tank become visible in the order of their `seq`. -/

theorem insertMovement_eq_ok {db : StockDb} {n : ℕ} {input : PostInput} {m : Movement}
    (h : insertMovement db n input = .ok m) :
    m = input.row n m.litres m.balanceAfter ∧ store 14 3 input.litres = some m.litres ∧
      store 14 3 ((db.currentBalance input.tankId : ℚ) / 10 ^ 3 + input.litres)
        = some m.balanceAfter ∧
      ∀ m' ∈ db.movements, ¬m.Conflicts m' := by
  unfold insertMovement at h
  split at h
  next litres balanceAfter hl hb =>
    split at h
    · cases h
    next hconf =>
      obtain rfl := ok.inj h
      refine ⟨rfl, hl, hb, ?_⟩
      simpa using hconf
  · cases h

theorem mem_loggedUpdate {v w : Write} {f : α → α} {r : Option α} :
    w ∈ (loggedUpdate v f r).1 ↔ r.isSome ∧ w = v := by
  cases r <;> simp [loggedUpdate]

section Row

variable {db : StockDb} {n : ℕ} {input : PostInput} {m : Movement}
  (h : insertMovement db n input = .ok m)

include h

theorem insertMovement_seq : m.seq = n := by rw [(insertMovement_eq_ok h).1]; rfl

theorem insertMovement_tankId : m.tankId = input.tankId := by rw [(insertMovement_eq_ok h).1]; rfl

theorem insertMovement_movementType : m.movementType = input.movementType := by
  rw [(insertMovement_eq_ok h).1]; rfl

theorem insertMovement_sourceRefType : m.sourceRefType = input.sourceRefType := by
  rw [(insertMovement_eq_ok h).1]; rfl

theorem insertMovement_litres {u : ℤ} (hu : input.litres * 10 ^ 3 = u) : m.litres = u :=
  store_units hu (insertMovement_eq_ok h).2.1

end Row

theorem insertMovement_of_mem_exec {q : Query} {db view : StockDb} {n : ℕ} {m : Movement}
    (h : Write.insertMovement m ∈ (exec env q db view n).1) :
    ∃ input, q = .insertMovement input ∧ insertMovement view n input = .ok m := by
  cases q with
  | insertMovement input =>
    obtain ⟨m', hins, hm⟩ := mem_logged h
    obtain rfl := Write.insertMovement.inj hm
    exact ⟨input, rfl, hins⟩
  | markReversed id => exact absurd (mem_loggedUpdate.mp h).2 (by simp)
  | receiveTransfer id o i => exact absurd (mem_loggedUpdate.mp h).2 (by simp)
  | upsertDraft input =>
    obtain ⟨r, -, hr⟩ := mem_loggedRow h
    cases hr
  | sealReconciliation id input =>
    obtain ⟨r, -, hr⟩ := mem_loggedRow h
    cases hr
  | _ => simp [exec] at h

section Alone

variable {env} {Q : StockResult → StockDb → ℕ → Prop} {db view : StockDb} {n : ℕ}

variable {k : Except StockError Movement → Txn env}
  (herr : ∀ e view' n', (k (.error e)).Yields db Q view' n') {input : PostInput}

include herr

theorem yields_insertRow (hok : ∀ m, insertMovement view n input = .ok m →
      (k (.ok m)).Yields db Q (view.apply (.insertMovement m)) (n + 1)) :
    (insertRow env input k).Yields db Q view n := by
  refine yields_step fun ws r hout ↦ ?_
  obtain ⟨e, -, rfl, rfl⟩ | ⟨m, hins, rfl, rfl⟩ := logged_eq hout
  · exact herr _ _ _
  · exact hok m hins

theorem yields_postMovement (hok : ∀ m n1, n ≤ n1 → insertMovement view n1 input = .ok m →
      (k (.ok m)).Yields db Q (view.apply (.insertMovement m)) (n1 + 1)) :
    (postMovement env input k).Yields db Q view n := by
  unfold postMovement
  rw [yields_lock]
  split
  · refine yields_read rfl fun has ↦ ?_
    cases has with
    | true => exact yields_insertRow herr fun m ↦ hok m _ (le_succ n)
    | false => exact herr _ _ _
  · exact yields_insertRow herr fun m ↦ hok m n le_rfl

theorem yields_setOpeningBalance {input : OpeningInput}
    (hok : ∀ m n1, n ≤ n1 → insertMovement view n1 input.toPost = .ok m →
      (k (.ok m)).Yields db Q (view.apply (.insertMovement m)) (n1 + 1)) :
    (setOpeningBalance env input k).Yields db Q view n := by
  refine yields_read rfl fun has ↦ ?_
  cases has with
  | true => exact herr _ _ _
  | false =>
    refine yields_postMovement (fun e view' n' ↦ ?_) fun m n1 hn hins ↦ hok m n1 (by omega) hins
    split <;> exact herr _ _ _

end Alone

end FuelGrid.Stock
