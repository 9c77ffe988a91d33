import FuelGrid.Stock.Ledger

/-!
# Reconciliation transactions

`computeReconciliation` and the handlers that persist and seal its result
(`reconciliation_handlers.go`).
-/

namespace FuelGrid.Stock

open Sql

variable (env : Env)

/-! ## Programs

What the handlers read from tables that no ledger or reconciliation function writes (the shifts of
the day, the closing dip, the product's tolerance) is an argument of the program: every call may
find any values there. -/

/-- What a reconciliation reads from the other tables for a tank and a day. -/
structure DayReads where
  /-- `UnapprovedShiftCountForDay` -/
  unapproved : ℕ
  /-- `ClosingDipVolumeText`, in thousandths of a litre. -/
  closingDip : Option ℤ
  /-- `ProductTolerancePercentText`, in hundredths of a percent. -/
  tolerancePercent : Option ℤ

/-- The part of `computeReconciliation` after the opening book and the watermark are known. -/
def computeFrom (tank : Uuid) (reads : DayReads) (openingBook : ℤ) (fromSeq : ℕ)
    (k : Computed → Txn env) : Txn env :=
  match reads.closingDip, reads.tolerancePercent with
  | none, _ => .rollback (.http 422 "tank has no closing dip for this operating day")
  | some _, none => .rollback (.http 500 "internal error")
  | some closingPhysical, some tolerancePercent =>
    .query (.compute { tankId := tank, openingBook, closingPhysical, tolerancePercent, fromSeq }) k

/-- `computeReconciliation`: the book is summed forward from the last sealed reconciliation, else
from the genesis opening, else from nothing. -/
def computeReconciliation (tank : Uuid) (reads : DayReads) (k : Computed → Txn env) : Txn env :=
  if reads.unapproved > 0 then
    .rollback (.http 409 "approve all the day's shifts before reconciling")
  else .query (.lastSealedForTank tank) fun
    | some prior => computeFrom env tank reads prior.closingPhysical prior.throughSeq k
    | none => .query (.genesisOpeningLitres tank) fun
      | some (litres, seq) => computeFrom env tank reads litres seq k
      | none => computeFrom env tank reads 0 0 k

def handleReconciliationPreview (tank : Uuid) (reads : DayReads) : Txn env :=
  computeReconciliation env tank reads fun c ↦ .commit (.computed c)

def Computed.status (c : Computed) : ReconciliationStatus :=
  if c.withinTolerance then .draft else .exception

theorem Computed.status_ne_sealed (c : Computed) : c.status ≠ .sealed := by
  unfold Computed.status
  split <;> exact nofun

def Computed.draftInput (c : Computed) (tank day : Uuid) (status : ReconciliationStatus) :
    DraftInput where
  tankId := tank
  operatingDayId := day
  computed := c
  throughSeq := c.throughSeq
  status := status

/-- Answer with the stored row. No row means that the reconciliation is sealed already. -/
def answerRow : Except PgError (Option Reconciliation) → Txn env
  | .ok (some r) => .commit (.reconciliation r)
  | .ok none => .rollback (.http 409 "reconciliation already sealed")
  | .error _ => .rollback (.http 500 "internal error")

def handlePersistReconciliation (tank day : Uuid) (reads : DayReads) : Txn env :=
  .query (.getForTankDay tank day) fun existing ↦
    if existing.any (·.status = .sealed) then
      .rollback (.http 409 "reconciliation already sealed")
    else computeReconciliation env tank reads fun c ↦
      .lock (.reconciliation tank day) <|
        .query (.upsertDraft (c.draftInput tank day c.status)) (answerRow env)

/-- The end of a seal: read the watermark and freeze the row. -/
def sealThrough (rec : Reconciliation) (c : Computed) : Txn env :=
  .query (.maxSeqForTank rec.tankId) fun throughSeq ↦
    .query (.findUnsealed rec.id) fun found ↦
      if found then
        .lock (.reconciliation rec.tankId rec.operatingDayId) <|
          .query (.sealReconciliation rec.id
            { c.draftInput rec.tankId rec.operatingDayId .sealed with throughSeq })
            (answerRow env)
      else .rollback (.http 409 "reconciliation already sealed")

/-- The figures are final: post the residual, if there is one, and seal. -/
def sealComputed (rec : Reconciliation) (c : Computed) : Txn env :=
  if !c.withinTolerance then
    .rollback (.http 409 "variance is over tolerance; record adjustments before sealing")
  else if c.writeOffNonZero then
    postWriteOff env rec.tankId rec.id ((c.writeOff : ℚ) / 10 ^ 3) fun
      | .ok _ => sealThrough env rec c
      | .error _ => .rollback (.http 500 "internal error")
  else sealThrough env rec c

def handleSealReconciliation (id : Uuid) (reads : DayReads) : Txn env :=
  .query (.getReconciliation id) fun
    | none => .rollback (.http 404 "reconciliation not found")
    | some rec =>
      if rec.status = .sealed then .rollback (.http 409 "reconciliation already sealed")
      else computeReconciliation env rec.tankId reads (sealComputed env rec)

/-! ## Operations run alone -/

/-- One handler or repository function in a transaction of its own. -/
inductive StockOp where
  | setOpeningBalance (input : OpeningInput)
  | postMovement (input : PostInput)
  | reverseMovement (id : Uuid)
  | receiveTransfer (id : Uuid)
  | persistReconciliation (tank day : Uuid) (reads : DayReads)
  | sealReconciliation (id : Uuid) (reads : DayReads)

def StockOp.prog : StockOp → Txn env
  | .setOpeningBalance input => callAll env [.setOpeningBalance input]
  | .postMovement input => callAll env [.postMovement input]
  | .reverseMovement id => callAll env [.reverseMovement id]
  | .receiveTransfer id => callAll env [.receiveTransfer id]
  | .persistReconciliation tank day reads => handlePersistReconciliation env tank day reads
  | .sealReconciliation id reads => handleSealReconciliation env id reads

/-- The opening book and the watermark that `computeReconciliation` starts from. -/
def StockDb.anchor (db : StockDb) (tank : Uuid) (n : ℕ) : ℤ × ℕ :=
  match env.pick n (db.sealedFor tank) with
  | some r => (r.closingPhysical, r.throughSeq)
  | none => (db.genesisOpeningLitres tank).getD (0, 0)

/-- The figures derived from the state `db` when `LastSealedForTank` runs with stamp `n`. -/
def StockDb.figures (db : StockDb) (tank : Uuid) (n : ℕ) (closingPhysical tolerancePercent : ℤ) :
    Computed :=
  compute db {
    tankId := tank
    openingBook := (db.anchor env tank n).1
    closingPhysical
    tolerancePercent
    fromSeq := (db.anchor env tank n).2 }

/-- The reads let a reconciliation through with this physical figure and tolerance. -/
def DayReads.Admit (reads : DayReads) (closingPhysical tolerancePercent : ℤ) : Prop :=
  reads.unapproved = 0 ∧ reads.closingDip = some closingPhysical ∧
    reads.tolerancePercent = some tolerancePercent

/-! ### One rule per function

Each rule says what a program yields when it runs alone: what has to be checked for its
continuation. -/

variable {id tank : Uuid} {reads : DayReads} {phys tol b : ℤ} {input : DraftInput}
  {r r' x : Reconciliation} {l : List Reconciliation}

section Rules

variable {env} {db view : StockDb} {n : ℕ} {Q : StockResult → StockDb → ℕ → Prop}
  {k : Except StockError Transfer → Txn env}

private theorem yields_reverseMovement {k : Except StockError Movement → Txn env}
    (herr : ∀ e view' n', (k (.error e)).Yields db Q view' n')
    (hok : ∀ orig m n₁, n ≤ n₁ → orig ∈ view.movements → orig.id = id → orig.status = .posted →
      insertMovement (view.apply (.markReversed id)) n₁ orig.contra = .ok m →
      (k (.ok m)).Yields db Q ((view.apply (.markReversed id)).apply (.insertMovement m))
        (n₁ + 1)) :
    (reverseMovement env id k).Yields db Q view n := by
  refine yields_read rfl fun found ↦ ?_
  cases found with
  | true =>
    simp only [↓reduceIte, yields_lock, Prog.yields_query, exec]
    cases hfi : view.movements.find? fun m ↦ m.id = id ∧ m.status = .posted with
    | none =>
      refine yields_read rfl fun m ↦ ?_
      cases m <;> exact herr _ _ _
    | some orig =>
      have hmem := mem_of_find?_eq_some hfi
      have hprop : orig.id = id ∧ orig.status = .posted := by
        simpa using find?_some hfi
      have hcon : (Movement.reverse id orig).contra = orig.contra := by
        simp [Movement.reverse, Movement.contra, hprop.1]
      simp only [loggedUpdate, hcon]
      exact yields_postMovement herr fun m n₁ hn hins ↦
        hok orig m n₁ (by omega) hmem hprop.1 hprop.2 hins
  | false =>
    refine yields_read rfl fun m ↦ ?_
    cases m <;> exact herr _ _ _

def LegsPosted (view : StockDb) (t : Transfer) (n : ℕ) (out inn : Movement) : Prop :=
  insertMovement view n (t.leg t.fromTankId (-t.litres)) = .ok out ∧
    insertMovement (view.apply (.insertMovement out)) (n + 1) (t.leg t.toTankId t.litres) = .ok inn

private theorem yields_postTransfer {t : Transfer}
    (herr : ∀ e view' n', (k (.error e)).Yields db Q view' n')
    (hok : ∀ out inn n₁ t', n ≤ n₁ → LegsPosted view t n₁ out inn →
      (k (.ok t')).Yields db Q (((view.apply (.insertMovement out)).apply
        (.insertMovement inn)).apply (.receiveTransfer t.id out.id inn.id)) (n₁ + 3)) :
    (postTransfer env t k).Yields db Q view n := by
  simp only [postTransfer, yields_lock]
  refine yields_read rfl fun sufficient ↦ ?_
  cases sufficient with
  | false => exact herr _ _ _
  | true =>
    rw [if_pos rfl]
    refine yields_insertRow (fun _ ↦ herr _) fun out hout ↦ ?_
    refine yields_insertRow (fun _ ↦ herr _) fun inn hinn ↦ ?_
    simp only [Prog.yields_query, exec]
    cases hfi : ((view.apply (.insertMovement out)).apply (.insertMovement inn)).transfers.find?
        fun t' ↦ t'.id = t.id with
    | none => exact herr _ _ _
    | some t' => exact hok out inn _ _ (by omega) ⟨hout, hinn⟩

private theorem yields_receiveTransfer (herr : ∀ e view' n', (k (.error e)).Yields db Q view' n')
    (hok : ∀ t out inn n₁ t', n ≤ n₁ → t ∈ view.transfers → t.id = id →
      LegsPosted view t n₁ out inn → (k (.ok t')).Yields db Q (((view.apply
        (.insertMovement out)).apply (.insertMovement inn)).apply
          (.receiveTransfer t.id out.id inn.id)) (n₁ + 3)) :
    (receiveTransfer env id k).Yields db Q view n := by
  refine yields_read rfl fun found ↦ ?_
  cases found with
  | false => exact herr _ _ _
  | true =>
    rw [if_pos rfl, yields_lock]
    refine yields_reply rfl ?_
    rintro (_ | t) hfi
    · exact herr _ _ _
    have hmem := mem_of_find?_eq_some hfi
    have hid : t.id = id := by simpa using find?_some hfi
    dsimp only
    split
    · exact herr _ _ _
    refine yields_read rfl ?_
    rintro (_ | fromProduct)
    · exact herr _ _ _
    refine yields_read rfl ?_
    rintro (_ | toProduct)
    · exact herr _ _ _
    dsimp only
    split
    · exact herr _ _ _
    · exact yields_postTransfer herr fun out inn n₁ t' hn hlegs ↦
        hok t out inn n₁ t' (by omega) hmem hid hlegs

/-- Before anything is written, the program computes the figures of the committed state. -/
theorem alone_computeReconciliation_eq (db : StockDb) (n : ℕ) (tank : Uuid)
    (k : Computed → Txn env) (h : reads.Admit phys tol) :
    ∃ n', n < n' ∧ (computeReconciliation env tank reads k).alone db [] n
      = (k (db.figures env tank n phys tol)).alone db [] n' := by
  have hshs : ¬reads.unapproved > 0 := by rw [h.1]; exact lt_irrefl 0
  obtain ⟨-, hdip, htol⟩ := h
  rw [computeReconciliation, if_neg hshs, Prog.alone_query]
  simp only [exec, append_nil]
  cases hpick : env.pick n (db.sealedFor tank) with
  | some prior =>
    refine ⟨n + 2, by omega, ?_⟩
    simp only [computeFrom, hdip, htol, Prog.alone_query, exec, append_nil, StockDb.figures,
      StockDb.anchor, hpick]
    rfl
  | none =>
    refine ⟨n + 3, by omega, ?_⟩
    cases hgen : db.genesisOpeningLitres tank with
    | none =>
      simp only [computeFrom, hdip, htol, Prog.alone_query, exec, append_nil,
        StockDb.figures, StockDb.anchor, hpick, hgen, getD_none]
      rfl
    | some genesis =>
      simp only [computeFrom, hdip, htol, Prog.alone_query, exec, append_nil,
        StockDb.figures, StockDb.anchor, hpick, hgen, getD_some]
      rfl

private theorem yields_computeFrom {q m : ℕ} {k : Computed → Txn env} (hm : n < m)
    (hshs : reads.unapproved = 0) (hanc : db.anchor env tank n = (b, q))
    (hok : ∀ phys tol n', n < n' → reads.Admit phys tol →
      (k (db.figures env tank n phys tol)).Yields db Q db n') :
    (computeFrom env tank reads b q k).Yields db Q db m := by
  unfold computeFrom
  split
  · trivial
  · trivial
  next phys tol hdip htol =>
    have hfig : db.figures env tank n phys tol = compute db ⟨tank, b, phys, tol, q⟩ := by
      rw [StockDb.figures, hanc]
    have := hok phys tol (m + 1) (hm.trans (lt_succ_self m)) ⟨hshs, hdip, htol⟩
    rw [hfig] at this
    exact this

private theorem yields_computeReconciliation {k : Computed → Txn env}
    (hok : ∀ phys tol n', n < n' → reads.Admit phys tol →
      (k (db.figures env tank n phys tol)).Yields db Q db n') :
    (computeReconciliation env tank reads k).Yields db Q db n := by
  unfold computeReconciliation
  split
  · trivial
  next hshs =>
  have hz : reads.unapproved = 0 := by omega
  refine yields_reply rfl fun (prior : Option Reconciliation) hpri ↦ ?_
  have hpri : env.pick n (db.sealedFor tank) = prior := hpri
  rcases prior with _ | prior
  · refine yields_reply rfl fun (genesis : Option (ℤ × ℕ)) hgen ↦ ?_
    have hanc : db.anchor env tank n = genesis.getD (0, 0) := by
      rw [StockDb.anchor, hpri]
      exact congrArg (Option.getD · (0, 0)) hgen
    rcases genesis with _ | ⟨litres, seq⟩ <;> exact yields_computeFrom (by omega) hz hanc hok
  · have hanc : db.anchor env tank n = (prior.closingPhysical, prior.throughSeq) := by
      rw [StockDb.anchor, hpri]
    exact yields_computeFrom (lt_succ_self n) hz hanc hok

end Rules

private theorem store_litres {u v : ℤ} (h : store 14 3 ((u : ℚ) / 10 ^ 3) = some v) : v = u :=
  store_units (n := u) (by ring) h

/-- The litres of a reconciliation are stored as they were computed. -/
theorem DraftInput.figures_eq_some {fig : Figures} (h : input.figures = some fig) :
    fig.openingBook = input.computed.openingBook ∧ fig.closingBook = input.computed.closingBook ∧
      fig.closingPhysical = input.computed.closingPhysical ∧
      fig.throughSeq = input.throughSeq := by
  simp only [DraftInput.figures, bind_eq_bind, bind_eq_some_iff, pure_def,
    some.injEq] at h
  obtain ⟨o, ho, -, -, -, -, -, -, b, hb, p, hp, -, -, -, -, -, -, rfl⟩ := h
  exact ⟨store_litres ho, store_litres hb, store_litres hp, rfl⟩

private theorem find?_and_of_find? {α : Type} {p q : α → Bool} {l : List α} {a : α}
    (h : l.find? p = some a) (hq : q a) : (l.find? fun x ↦ p x && q x) = some a := by
  induction l with
  | nil => cases h
  | cons x l ih =>
    by_cases hx : p x
    · obtain rfl : x = a := by simpa [hx] using h
      simp [hx, hq]
    · have hl : l.find? p = some a := by simpa [hx] using h
      simp [hx, ih hl]

private theorem sealReconciliation_eq_some {db : StockDb}
    (hget : db.reconciliations.find? (·.id = id) = some r) (hop : r.status ≠ .sealed)
    (h : sealReconciliation db id input = .ok (some r')) :
    ∃ fig, input.figures = some fig ∧ r' = { r with toFigures := fig, status := .sealed } := by
  have hfi : db.reconciliations.find? (fun r ↦ decide (r.id = id ∧ r.status ≠ .sealed))
      = some r := by
    have := find?_and_of_find? (q := fun r : Reconciliation ↦ decide (r.status ≠ .sealed)) hget
      (by simpa using hop)
    simpa using this
  unfold sealReconciliation at h
  split at h
  · cases h
  next fig hfig =>
    rw [hfi] at h
    obtain rfl : { r with toFigures := fig, status := .sealed } = r' := by simpa using h
    exact ⟨fig, hfig, rfl⟩

theorem upsertDraft_eq_some {db : StockDb} {n : ℕ} (h : upsertDraft db n input = .ok (some r')) :
    r'.tankId = input.tankId ∧ r'.status = input.status ∧
      (r'.id = n ∨ ∃ r ∈ db.reconciliations, r.id = r'.id ∧ r.status ≠ .sealed) := by
  unfold upsertDraft at h
  split at h
  · cases h
  next fig hfig =>
    split at h
    · obtain rfl := some.inj (ok.inj h)
      exact ⟨rfl, rfl, .inl rfl⟩
    next r hfi =>
      have htk : r.tankId = input.tankId ∧ r.operatingDayId = input.operatingDayId := by
        simpa using find?_some hfi
      split at h
      · cases h
      next hop =>
        obtain rfl := some.inj (ok.inj h)
        exact ⟨htk.1, rfl, .inr ⟨r, mem_of_find?_eq_some hfi, rfl, hop⟩⟩

/-! ### The table of reconciliations -/

theorem mem_putReconciliation : x ∈ putReconciliation r l ↔ x = r ∨ x ∈ l ∧ x.id ≠ r.id := by
  unfold putReconciliation
  split
  next hex =>
    obtain ⟨r', hr', hid⟩ := hex
    rw [mem_map]
    constructor
    · rintro ⟨y, hy, rfl⟩
      by_cases hyr : y.id = r.id
      · exact .inl (if_pos hyr)
      · rw [if_neg hyr]
        exact .inr ⟨hy, hyr⟩
    · rintro (rfl | ⟨hx, hxr⟩)
      · exact ⟨r', hr', if_pos hid⟩
      · exact ⟨x, hx, if_neg hxr⟩
  next hno =>
    rw [mem_append, mem_singleton]
    constructor
    · rintro (hx | rfl)
      · exact .inr ⟨hx, fun hid ↦ hno ⟨x, hx, hid⟩⟩
      · exact .inl rfl
    · rintro (rfl | ⟨hx, -⟩)
      · exact .inr rfl
      · exact .inl hx

/-- The primary key of the table: ids are distinct, and were drawn before `n`. -/
structure KeyedBelow (n : ℕ) (l : List Reconciliation) : Prop where
  below : ∀ r ∈ l, r.id < n
  unique : ∀ r ∈ l, ∀ r' ∈ l, r.id = r'.id → r = r'

theorem KeyedBelow.mono {n n' : ℕ} (h : KeyedBelow n l) (hn : n ≤ n') : KeyedBelow n' l :=
  ⟨fun r hr ↦ (h.below r hr).trans_le hn, h.unique⟩

theorem KeyedBelow.put {n : ℕ} (h : KeyedBelow n l) (hr : r.id < n) :
    KeyedBelow n (putReconciliation r l) := by
  constructor
  · intro x hx
    rcases mem_putReconciliation.mp hx with rfl | ⟨hx, -⟩
    · exact hr
    · exact h.below x hx
  · intro x hx y hy hid
    rcases mem_putReconciliation.mp hx with rfl | ⟨hx, hxr⟩ <;>
      rcases mem_putReconciliation.mp hy with rfl | ⟨hy, hyr⟩
    · rfl
    · exact absurd hid.symm hyr
    · exact absurd hid hxr
    · exact h.unique x hx y hy hid

theorem mem_sealedFor {db : StockDb} :
    r ∈ db.sealedFor tank ↔ r ∈ db.reconciliations ∧ r.tankId = tank ∧ r.status = .sealed := by
  simp [StockDb.sealedFor]

theorem KeyedBelow.unsealed {n : ℕ} (h : KeyedBelow n l)
    (hid : n ≤ id ∨ ∃ r ∈ l, r.id = id ∧ r.status ≠ .sealed) :
    ∀ x ∈ l, x.id = id → x.status ≠ .sealed := by
  rintro x hx rfl
  rcases hid with hfr | ⟨r, hr, hid, hop⟩
  · exact absurd (h.below x hx) hfr.not_gt
  · rwa [h.unique x hx r hr hid.symm]

/-- A draft gets a fresh id or keeps the id of an unsealed row. -/
theorem KeyedBelow.of_upsertDraft {db : StockDb} {n n₁ n' : ℕ}
    (h : KeyedBelow n db.reconciliations) (hn : n ≤ n₁) (hn' : n₁ < n')
    (hup : upsertDraft db n₁ input = .ok (some r)) :
    r.id < n' ∧ ∀ x ∈ db.reconciliations, x.id = r.id → x.status ≠ .sealed := by
  obtain ⟨-, -, hold⟩ := upsertDraft_eq_some hup
  refine ⟨?_, (h.mono hn).unsealed (hold.imp_left ge_of_eq)⟩
  rcases hold with hfr | ⟨r0, hr0, hid0, -⟩
  · exact hfr.trans_lt hn'
  · rw [← hid0]
    exact (h.below r0 hr0).trans_le (hn.trans hn'.le)

/-- Writing a row whose id no sealed row has loses no sealed row. -/
theorem mem_sealedFor_put {db : StockDb}
    (hold : ∀ y ∈ db.reconciliations, y.id = r.id → y.status ≠ .sealed) :
    x ∈ (db.apply (.putReconciliation r)).sealedFor tank ↔
      (x = r ∧ r.tankId = tank ∧ r.status = .sealed) ∨ x ∈ db.sealedFor tank := by
  have hmem : ∀ y, y ∈ (db.apply (.putReconciliation r)).reconciliations ↔
      y = r ∨ y ∈ db.reconciliations ∧ y.id ≠ r.id := fun y ↦ mem_putReconciliation
  rw [mem_sealedFor, mem_sealedFor, hmem]
  constructor
  · rintro ⟨rfl | ⟨hx, -⟩, ht, hs⟩
    · exact .inl ⟨rfl, ht, hs⟩
    · exact .inr ⟨hx, ht, hs⟩
  · rintro (⟨rfl, ht, hs⟩ | ⟨hx, ht, hs⟩)
    · exact ⟨.inl rfl, ht, hs⟩
    · exact ⟨.inr ⟨hx, fun hid ↦ hold x hx hid hs⟩, ht, hs⟩

/-! ### What an operation does

`Effect` says once what a whole transaction can do to the tables when it runs alone, and
`effect_alone` that this is all it can do. The sequential results follow from it without looking at
the programs again. -/

/-- The residual of a seal: nothing when physical and book agree, else the write-off row. -/
inductive Residual (db : StockDb) (n : ℕ) (r : Reconciliation) (c : Computed) : StockDb → Prop
  | none (h : c.writeOff = 0) : Residual db n r c db
  | posted {m : Movement}
      (h : insertMovement db n (writeOffInput r.tankId r.id ((c.writeOff : ℚ) / 10 ^ 3)) = .ok m) :
      Residual db n r c (db.apply (.insertMovement m))

/-- What a whole transaction does to the tables, and what it answers. -/
inductive Effect (env : Env) (db : StockDb) (n : ℕ) :
    StockOp → Except StockError StockResult × StockDb × ℕ → Prop
  | refused {op e n'} (hn : n ≤ n') : Effect env db n op (.error e, db, n')
  | opened {input m n₁ n'} (hn : n ≤ n₁) (hn' : n₁ < n')
      (hins : insertMovement db n₁ input.toPost = .ok m) :
      Effect env db n (.setOpeningBalance input) (.ok .done, db.apply (.insertMovement m), n')
  | posted {input m n₁ n'} (hn : n ≤ n₁) (hn' : n₁ < n')
      (hins : insertMovement db n₁ input = .ok m) :
      Effect env db n (.postMovement input) (.ok .done, db.apply (.insertMovement m), n')
  | reversed {id orig m n₁ n'} (hn : n ≤ n₁) (hn' : n₁ < n') (horig : orig ∈ db.movements)
      (hid : orig.id = id) (hposted : orig.status = .posted)
      (hins : insertMovement (db.apply (.markReversed id)) n₁ orig.contra = .ok m) :
      Effect env db n (.reverseMovement id)
        (.ok .done, (db.apply (.markReversed id)).apply (.insertMovement m), n')
  | transferred {id t out inn n₁ n'} (hn : n ≤ n₁) (hn' : n₁ + 1 < n') (ht : t ∈ db.transfers)
      (hid : t.id = id)
      (hout : insertMovement db n₁ (t.leg t.fromTankId (-t.litres)) = .ok out)
      (hinn : insertMovement (db.apply (.insertMovement out)) (n₁ + 1)
        (t.leg t.toTankId t.litres) = .ok inn) :
      Effect env db n (.receiveTransfer id)
        (.ok .done, ((db.apply (.insertMovement out)).apply (.insertMovement inn)).apply
          (.receiveTransfer t.id out.id inn.id), n')
  | drafted {tank day reads} {c : Computed} {r n₁ n'} (hn : n ≤ n₁) (hn' : n₁ < n')
      (hup : upsertDraft db n₁ (c.draftInput tank day c.status) = .ok (some r)) :
      Effect env db n (.persistReconciliation tank day reads)
        (.ok (.reconciliation r), db.apply (.putReconciliation r), n')
  | sealed {id reads r db₁ phys tol fig n₀ n₁ n'} (hn : n ≤ n₀) (hn₁ : n ≤ n₁) (hn' : n₁ < n')
      (hget : db.reconciliations.find? (·.id = id) = some r) (hopen : r.status ≠ .sealed)
      (hreads : reads.Admit phys tol)
      (hres : Residual db n₁ r (db.figures env r.tankId n₀ phys tol) db₁)
      (hfig : DraftInput.figures
        { (db.figures env r.tankId n₀ phys tol).draftInput r.tankId r.operatingDayId .sealed with
          throughSeq := maxSeq 0 (db₁.ledger r.tankId) } = some fig) :
      Effect env db n (.sealReconciliation id reads)
        (.ok (.reconciliation { r with toFigures := fig, status := .sealed }),
          db₁.apply (.putReconciliation { r with toFigures := fig, status := .sealed }), n')

section Effects

variable {env} {db : StockDb} {n : ℕ}

/-- What an accepted operation yields is one of the effects. -/
def Yield (env : Env) (db : StockDb) (n : ℕ) (op : StockOp) (p : Txn env) (view : StockDb) (m : ℕ) :
    Prop :=
  p.Yields db (fun a db' n' ↦ Effect env db n op (.ok a, db', n')) view m

private theorem yield_persistReconciliation (tank day : Uuid) (reads : DayReads) :
    Yield env db n (.persistReconciliation tank day reads)
      (handlePersistReconciliation env tank day reads) db n := by
  refine yields_read rfl fun existing ↦ ?_
  dsimp only
  split
  · trivial
  refine yields_computeReconciliation fun phys tol n' hn _ ↦ ?_
  rw [yields_lock]
  refine yields_step fun ws r hout ↦ ?_
  obtain ⟨e, -, rfl, rfl⟩ | ⟨-, rfl, rfl⟩ | ⟨row, hup, rfl, rfl⟩ := loggedRow_eq hout
  · trivial
  · trivial
  · exact .drafted (by omega) (lt_succ_self n') hup

/-- The end of a seal, whether or not a write-off was posted before it. -/
theorem yield_sealThrough {view : StockDb} {n₀ n₁ n2 : ℕ} (hn : n ≤ n₀) (hn₁ : n ≤ n₁)
    (hn2 : n₁ ≤ n2) (hget : db.reconciliations.find? (·.id = id) = some r)
    (hop : r.status ≠ .sealed) (hrea : reads.Admit phys tol)
    (hvw : view.reconciliations = db.reconciliations)
    (hres : Residual db n₁ r (db.figures env r.tankId n₀ phys tol) view) :
    Yield env db n (.sealReconciliation id reads)
      (sealThrough env r (db.figures env r.tankId n₀ phys tol)) view n2 := by
  obtain rfl : r.id = id := by simpa using find?_some hget
  refine yields_reply rfl fun throughSeq hseq ↦ ?_
  subst hseq
  refine yields_read rfl fun found ↦ ?_
  cases found with
  | false => trivial
  | true =>
    rw [if_pos rfl, yields_lock]
    refine yields_step fun ws r' hout ↦ ?_
    obtain ⟨e, -, rfl, rfl⟩ | ⟨-, rfl, rfl⟩ | ⟨row, hseal, rfl, rfl⟩ := loggedRow_eq hout
    · trivial
    · trivial
    · obtain ⟨fig, hfig, rfl⟩ := sealReconciliation_eq_some (hvw ▸ hget) hop hseal
      exact .sealed hn hn₁ (by omega) hget hop hrea hres hfig

private theorem yield_sealReconciliation (id : Uuid) (reads : DayReads) :
    Yield env db n (.sealReconciliation id reads) (handleSealReconciliation env id reads) db n := by
  refine yields_reply rfl fun (r : Option Reconciliation) hget ↦ ?_
  have hget : db.reconciliations.find? (·.id = id) = r := hget
  rcases r with _ | r
  · trivial
  dsimp only
  split
  · trivial
  next hop =>
  refine yields_computeReconciliation fun phys tol n' hn hrea ↦ ?_
  unfold sealComputed
  split
  · trivial
  split
  · rw [postWriteOff, yields_lock]
    refine yields_insertRow (fun _ _ _ ↦ by trivial) fun m hins ↦ ?_
    exact yield_sealThrough (le_succ n) (by omega) (le_succ n') hget hop hrea rfl
      (.posted hins)
  next hz =>
    refine yield_sealThrough (le_succ n) (by omega) le_rfl hget hop hrea rfl (.none ?_)
    simpa [StockDb.figures, compute] using hz

theorem effect_alone (env : Env) (db : StockDb) (n : ℕ) (op : StockOp) :
    Effect env db n op ((op.prog env).alone db [] n) := by
  refine alone_of_yields (S := schema env) (R := Effect env db n op) (fun _ _ hn ↦ .refused hn)
    (Prog.Yields.imp (fun _ _ _ h _ ↦ h) (?_ : Yield env db n op (op.prog env) db n))
  cases op with
  | setOpeningBalance input =>
    exact yields_setOpeningBalance (fun _ _ _ ↦ by trivial)
      fun _ _ hn hins ↦ .opened hn (lt_succ_self _) hins
  | postMovement input =>
    exact yields_postMovement (fun _ _ _ ↦ by trivial)
      fun _ _ hn hins ↦ .posted hn (lt_succ_self _) hins
  | reverseMovement id =>
    exact yields_reverseMovement (fun _ _ _ ↦ by trivial) fun _ _ _ hn horig hid hpd hins ↦
      .reversed hn (lt_succ_self _) horig hid hpd hins
  | receiveTransfer id =>
    exact yields_receiveTransfer (fun _ _ _ ↦ by trivial) fun _ _ _ _ _ hn ht hid hlegs ↦
      .transferred hn (by omega) ht hid hlegs.1 hlegs.2
  | persistReconciliation tank day reads => exact yield_persistReconciliation tank day reads
  | sealReconciliation id reads => exact yield_sealReconciliation id reads

end Effects

end FuelGrid.Stock
