import FuelGrid.Stock.Reconciliation

/-!
# Two definitions of book stock

A tank's book stock is the sum of its ledger (`CurrentBalance`). `computeReconciliation` derives the
same figure another way: from an anchor, the sealed physical figure or the genesis opening, and the
period sums after the anchor's watermark, one per movement type.
-/

namespace FuelGrid.Stock

open Sql

/-! ## Sums -/

/-- The rows up to a watermark. -/
def upTo (q : ℕ) (l : List Movement) : List Movement := l.filter (·.seq ≤ q)

theorem upTo_append (q : ℕ) (l l' : List Movement) : upTo q (l ++ l') = upTo q l ++ upTo q l' :=
  filter_append ..

variable {l : List Movement} {env : Env} {tank : Uuid} {db db1 : StockDb} {n n' q : ℕ}
  {r : Reconciliation} {phys tol : ℤ} {m : Movement}

theorem upTo_eq_self (h : ∀ m ∈ l, m.seq ≤ q) : upTo q l = l :=
  filter_eq_self.mpr fun m hm ↦ by simpa using h m hm

theorem upTo_eq_nil (h : ∀ m ∈ l, q < m.seq) : upTo q l = [] :=
  filter_eq_nil_iff.mpr fun m hm ↦ by simpa using h m hm

private theorem sumLitres_upTo_add (q : ℕ) (l : List Movement) :
    sumLitres (upTo q l) + sumLitres (l.filter (q < ·.seq)) = sumLitres l := by
  induction l with
  | nil => rfl
  | cons m l ih =>
    by_cases hm : m.seq ≤ q <;>
      simp only [upTo, filter_cons, hm, ← not_le, not_true,
        not_false_iff, decide_true, decide_false,
        Bool.false_eq_true, if_true, if_false, sumLitres_cons] at ih ⊢ <;>
      omega

@[simp] theorem typeTotal_nil (k : MovementType) : typeTotal k [] = 0 := rfl

private theorem typeTotal_cons (k : MovementType) (m : Movement) (l : List Movement) :
    typeTotal k (m :: l) = (if m.movementType = k then m.litres else 0) + typeTotal k l := by
  by_cases h : m.movementType = k <;> simp [typeTotal, h]

private theorem sumLitres_eq_typeTotals (l : List Movement) :
    sumLitres l = typeTotal .opening l + typeTotal .delivery l + typeTotal .sales l
      + typeTotal .adjustment l + typeTotal .transfer l := by
  induction l with
  | nil => rfl
  | cons m l ih =>
    simp only [sumLitres_cons, typeTotal_cons, ih]
    cases m.movementType <;> simp <;> ring

private theorem typeTotal_eq_zero {k : MovementType} (h : ∀ m ∈ l, m.movementType ≠ k) :
    typeTotal k l = 0 := by
  rw [typeTotal, filter_eq_nil_iff.mpr fun m hm ↦ by simpa using h m hm]
  rfl

theorem le_maxSeq (d : ℕ) (hm : m ∈ l) : m.seq ≤ maxSeq d l := by
  induction l with
  | nil => cases hm
  | cons m' l ih =>
    rcases mem_cons.mp hm with rfl | hm
    · exact le_max_left _ _
    · exact (ih hm).trans (le_max_right _ _)

theorem maxSeq_lt {d n : ℕ} (hd : d < n) (h : ∀ m ∈ l, m.seq < n) : maxSeq d l < n := by
  induction l with
  | nil => exact hd
  | cons m l ih =>
    exact max_lt (h m mem_cons_self) (ih fun m' hm' ↦ h m' (mem_cons_of_mem m hm'))

/-- Closing book is the opening book plus everything after the watermark except transfers. -/
theorem closingBook_compute (db : StockDb) (input : ComputeInput) :
    (compute db input).closingBook = input.openingBook
      + sumLitres ((db.ledger input.tankId).filter (input.fromSeq < ·.seq))
      - typeTotal .transfer ((db.ledger input.tankId).filter (input.fromSeq < ·.seq)) := by
  rw [sumLitres_eq_typeTotals]
  simp only [compute]
  ring

/-- Without transfers, an anchor that is the sum of the ledger up to its watermark gives the whole
sum as the closing book. -/
theorem closingBook_of_anchor {db : StockDb} {input : ComputeInput}
    (htra : ∀ m ∈ db.ledger input.tankId, m.movementType ≠ .transfer)
    (hanc : sumLitres (upTo input.fromSeq (db.ledger input.tankId)) = input.openingBook) :
    (compute db input).closingBook = db.currentBalance input.tankId := by
  rw [closingBook_compute, typeTotal_eq_zero fun m hm ↦ htra m (mem_of_mem_filter hm),
    sub_zero, ← hanc, sumLitres_upTo_add]
  rfl

/-! ## The invariant

The two figures agree as long as the anchor is the sum of the ledger up to its watermark
(`closingBook_figures`). `BookInv` says this of every anchor the tank can have. -/

/-- Every anchor a reconciliation of the tank can start from is the sum of the ledger up to its
watermark. -/
structure BookInv (tank : Uuid) (db : StockDb) (n : ℕ) : Prop where
  pos : 0 < n
  seqs : ∀ m ∈ db.ledger tank, 0 < m.seq ∧ m.seq < n
  keys : KeyedBelow n db.reconciliations
  noTransfer : ∀ m ∈ db.ledger tank, m.movementType ≠ .transfer
  /-- A sealed physical figure is what the ledger summed to at its watermark. -/
  anchored : ∀ r ∈ db.sealedFor tank,
    sumLitres (upTo r.throughSeq (db.ledger tank)) = r.closingPhysical ∧ r.throughSeq < n
  /-- Before the first seal, nothing precedes a genuine opening. -/
  genesis : db.sealedFor tank = [] → ∀ o ∈ db.ledger tank, o.IsOpening →
    sumLitres (upTo o.seq (db.ledger tank)) = o.litres

theorem BookInv.mono (h : BookInv tank db n) (hn : n ≤ n') : BookInv tank db n' where
  pos := h.pos.trans_le hn
  seqs m hm := ⟨(h.seqs m hm).1, (h.seqs m hm).2.trans_le hn⟩
  keys := h.keys.mono hn
  noTransfer := h.noTransfer
  anchored r hr := ⟨(h.anchored r hr).1, (h.anchored r hr).2.trans_le hn⟩
  genesis := h.genesis

theorem pick_eq_none {l : List Reconciliation} (h : env.pick n l = none) : l = [] := by
  cases l with
  | nil => rfl
  | cons r l =>
    obtain ⟨r', -, hpick, -⟩ := env.pick_cons n r l
    rw [h] at hpick
    cases hpick

theorem mem_of_pick {l : List Reconciliation} (h : env.pick n l = some r) :
    r ∈ l ∧ ∀ r' ∈ l, r'.throughSeq ≤ r.throughSeq := by
  cases l with
  | nil => rw [env.pick_nil] at h; cases h
  | cons r0 l =>
    obtain ⟨r', hmem, hpick, hmax⟩ := env.pick_cons n r0 l
    obtain rfl := some.inj (hpick.symm.trans h)
    exact ⟨hmem, hmax⟩

theorem genesisOpeningLitres_eq_some {b : ℤ} (h : db.genesisOpeningLitres tank = some (b, q)) :
    ∃ o ∈ db.ledger tank, o.IsOpening ∧ o.litres = b ∧ o.seq = q := by
  obtain ⟨o, ho, heq⟩ := map_eq_some_iff.mp h
  obtain ⟨hmem, hop⟩ := mem_filter.mp (List.argmax_mem ho)
  exact ⟨o, hmem, by simpa using hop, congrArg Prod.fst heq, congrArg Prod.snd heq⟩

/-- Whatever the anchor is, it is the sum of the ledger up to its watermark. -/
theorem BookInv.sumLitres_anchor (h : BookInv tank db n) (n0 : ℕ) :
    sumLitres (upTo (db.anchor env tank n0).2 (db.ledger tank)) = (db.anchor env tank n0).1 := by
  unfold StockDb.anchor
  split
  next r hr => exact (h.anchored r (mem_of_pick hr).1).1
  next hno =>
    have hsl := pick_eq_none hno
    cases hgen : db.genesisOpeningLitres tank with
    | none =>
      rw [getD_none, upTo_eq_nil fun m hm ↦ (h.seqs m hm).1]
      rfl
    | some anchor =>
      obtain ⟨o, ho, hop, hlit, hseq⟩ := genesisOpeningLitres_eq_some hgen
      rw [getD_some, ← hlit, ← hseq]
      exact h.genesis hsl o ho hop

/-- Under the invariant the two definitions of book stock agree. -/
theorem BookInv.closingBook_figures (env : Env) (h : BookInv tank db n) (n0 : ℕ) (phys tol : ℤ) :
    (db.figures env tank n0 phys tol).closingBook = db.currentBalance tank :=
  closingBook_of_anchor h.noTransfer (h.sumLitres_anchor n0)

/-! ## Operations keep the invariant

Every operation keeps it (`bookInv_effect`), with two exceptions, which `KeepsBook` excludes:

* the period sums have no term for `transfer`, so a received transfer is missing from the book;
* a genesis opening posted on a ledger that does not sum to zero makes what came before disappear
  from the book.
-/

theorem ledger_insert (m : Movement) :
    (db.apply (.insertMovement m)).ledger tank
      = db.ledger tank ++ if m.tankId = tank then [m] else [] := by
  by_cases h : m.tankId = tank <;> simp [StockDb.ledger, StockDb.apply, h]

theorem mem_ledger_insert {m' : Movement} (h : m' ∈ (db.apply (.insertMovement m)).ledger tank) :
    m' ∈ db.ledger tank ∨ m' = m ∧ m.tankId = tank := by
  rw [ledger_insert] at h
  rcases mem_append.mp h with hold | hnew
  · exact .inl hold
  · split at hnew
    next ht => exact .inr ⟨mem_singleton.mp hnew, ht⟩
    · cases hnew

section BookInv

variable (h : BookInv tank db n)

include h

theorem BookInv.insert (hn : n ≤ m.seq) (hn' : m.seq < n')
    (hty : m.tankId = tank → m.movementType ≠ .transfer)
    (hopen : m.tankId = tank → m.IsOpening → db.sealedFor tank = [] → db.currentBalance tank = 0) :
    BookInv tank (db.apply (.insertMovement m)) n' := by
  have hkeep : ∀ q, q < n → upTo q ((db.apply (.insertMovement m)).ledger tank)
      = upTo q (db.ledger tank) := by
    intro q hq
    rw [ledger_insert, upTo_append, List.append_right_eq_self]
    split
    · exact upTo_eq_nil fun m' hm' ↦ by
        rw [mem_singleton.mp hm']
        omega
    · rfl
  refine ⟨by omega, ?_, h.keys.mono (by omega), ?_, ?_, ?_⟩
  · intro m' hm'
    rcases mem_ledger_insert hm' with hold | ⟨rfl, -⟩
    · exact ⟨(h.seqs m' hold).1, (h.seqs m' hold).2.trans (by omega)⟩
    · exact ⟨h.pos.trans_le hn, hn'⟩
  · intro m' hm'
    rcases mem_ledger_insert hm' with hold | ⟨rfl, ht⟩
    · exact h.noTransfer m' hold
    · exact hty ht
  · intro r hr
    obtain ⟨hsum, hlt⟩ := h.anchored r hr
    exact ⟨by rw [hkeep _ hlt, hsum], by omega⟩
  · intro hsl o ho hop
    rcases mem_ledger_insert ho with hold | ⟨rfl, ht⟩
    · rw [hkeep _ (h.seqs o hold).2]
      exact h.genesis hsl o hold hop
    · -- the new row is the opening: everything before it sums to zero
      have hall : upTo o.seq (db.ledger tank) = db.ledger tank :=
        upTo_eq_self fun m' hm' ↦ ((h.seqs m' hm').2.trans_le hn).le
      have hz : sumLitres (db.ledger tank) = 0 := hopen ht hop hsl
      rw [ledger_insert, if_pos ht, upTo_append, hall, sumLitres_append, hz, zero_add,
        upTo_eq_self (by simp), sumLitres_cons, sumLitres_nil, add_zero]

theorem BookInv.reverse (id : Uuid) : BookInv tank (db.apply (.markReversed id)) n := by
  have hsum : ∀ q, sumLitres (upTo q ((db.apply (.markReversed id)).ledger tank))
      = sumLitres (upTo q (db.ledger tank)) := by
    intro q
    rw [ledger_markReversed, upTo, filter_map]
    simp [sumLitres, upTo, comp_def]
  have hmem : ∀ m' ∈ (db.apply (.markReversed id)).ledger tank,
      ∃ m ∈ db.ledger tank, m.reverse id = m' := by
    intro m' hm'
    rw [ledger_markReversed] at hm'
    exact mem_map.mp hm'
  refine ⟨h.pos, ?_, h.keys, ?_, ?_, ?_⟩
  · intro m' hm'
    obtain ⟨m, hm, rfl⟩ := hmem m' hm'
    simpa using h.seqs m hm
  · intro m' hm'
    obtain ⟨m, hm, rfl⟩ := hmem m' hm'
    simpa using h.noTransfer m hm
  · intro r hr
    rw [hsum]
    exact h.anchored r hr
  · intro hsl o ho hop
    obtain ⟨m, hm, rfl⟩ := hmem o ho
    rw [hsum, Movement.reverse_seq, Movement.reverse_litres]
    exact h.genesis hsl m hm (Movement.isOpening_of_reverse hop)

theorem BookInv.put (hid : r.id < n)
    (hold : ∀ x ∈ db.reconciliations, x.id = r.id → x.status ≠ .sealed)
    (hanc : r.tankId = tank → r.status = .sealed →
      sumLitres (upTo r.throughSeq (db.ledger tank)) = r.closingPhysical ∧ r.throughSeq < n) :
    BookInv tank (db.apply (.putReconciliation r)) n := by
  refine ⟨h.pos, h.seqs, h.keys.put hid, h.noTransfer, ?_, ?_⟩
  · intro x hx
    rcases (mem_sealedFor_put hold).mp hx with ⟨rfl, ht, hs⟩ | hx
    · exact hanc ht hs
    · exact h.anchored x hx
  · intro hno
    refine h.genesis (List.eq_nil_iff_forall_not_mem.mpr fun x hx ↦ ?_)
    have hput := (mem_sealedFor_put hold).mpr (.inr hx)
    rw [hno] at hput
    cases hput

/-- The residual posted by a seal leaves the ledger on the physical figure. -/
theorem BookInv.residual {n0 n1 : ℕ} (hn : n ≤ n1) (hn' : n1 < n')
    (hres : Residual db n1 r (db.figures env r.tankId n0 phys tol) db1) :
    BookInv tank db1 n' ∧ db1.reconciliations = db.reconciliations ∧
      (r.tankId = tank → db1.currentBalance tank = phys) := by
  cases hres with
  | none hz =>
    refine ⟨h.mono (by omega), rfl, ?_⟩
    rintro rfl
    have hbook := h.closingBook_figures env n0 phys tol
    have hoff : phys - (db.figures env r.tankId n0 phys tol).closingBook = 0 := hz
    omega
  | @posted m hins =>
    have hty : m.movementType = .adjustment := insertMovement_movementType hins
    have hseq := insertMovement_seq hins
    have htk : m.tankId = r.tankId := insertMovement_tankId hins
    have hlit := insertMovement_litres
      (u := phys - (db.figures env r.tankId n0 phys tol).closingBook) hins
      (div_mul_cancel₀ _ (by norm_num))
    refine ⟨h.insert (by omega) (by omega) (fun _ ↦ ?_) (fun _ hop ↦ ?_), rfl, ?_⟩
    · rw [hty]
      decide
    · rw [Movement.IsOpening, hty] at hop
      exact absurd hop.1 (by decide)
    · rintro rfl
      have hbook := h.closingBook_figures env n0 phys tol
      rw [StockDb.currentBalance, ledger_insert, if_pos htk, sumLitres_append, sumLitres_cons,
        sumLitres_nil, hlit, hbook]
      change db.currentBalance r.tankId + _ = _
      omega

/-- A sealed row is an anchor: it carries the physical figure, on which the ledger has landed, and
the watermark of the whole ledger. -/
theorem BookInv.sealed {fig : Figures} {n0 n1 : ℕ} (hn : n ≤ n1) (hn' : n1 < n')
    (hr : r ∈ db.reconciliations) (hop : r.status ≠ .sealed)
    (hres : Residual db n1 r (db.figures env r.tankId n0 phys tol) db1) (hfig : DraftInput.figures
      { (db.figures env r.tankId n0 phys tol).draftInput r.tankId r.operatingDayId .sealed with
        throughSeq := maxSeq 0 (db1.ledger r.tankId) } = some fig) : BookInv tank
      (db1.apply (.putReconciliation { r with toFigures := fig, status := .sealed })) n' ∧
      (r.tankId = tank → db1.currentBalance tank = fig.closingPhysical) := by
  obtain ⟨-, -, hphys, hthr⟩ := DraftInput.figures_eq_some hfig
  obtain ⟨h1, hrecs, hland⟩ := h.residual hn hn' hres
  have hbal : r.tankId = tank → db1.currentBalance tank = fig.closingPhysical := fun ht ↦ by
    rw [hland ht, hphys]
    rfl
  refine ⟨h1.put ?_ ?_ fun ht _ ↦ ?_, hbal⟩
  · exact (h.keys.below r hr).trans_le (hn.trans hn'.le)
  · rw [hrecs]
    exact h.keys.unsealed (.inr ⟨r, hr, rfl, hop⟩)
  · change r.tankId = tank at ht
    change sumLitres (upTo fig.throughSeq _) = fig.closingPhysical ∧ fig.throughSeq < n'
    rw [hthr, ht, upTo_eq_self fun m hm ↦ le_maxSeq 0 hm]
    exact ⟨hbal ht, maxSeq_lt h1.pos fun m hm ↦ (h1.seqs m hm).2⟩

end BookInv

/-- The types `PostMovement` is called with outside `SetOpeningBalance` and `ReverseMovement`. -/
def StockOp.InScope : StockOp → Prop
  | .postMovement input =>
    input.movementType = .delivery ∨ input.movementType = .sales ∨ input.movementType = .adjustment
  | _ => True

/-- No transfer that touches the tank is received, and the tank is opened only when it has been
sealed before or its ledger sums to zero. -/
def KeepsBook (tank : Uuid) (db : StockDb) : StockOp → Prop
  | .setOpeningBalance input =>
    input.tankId = tank → db.sealedFor tank ≠ [] ∨ db.currentBalance tank = 0
  | .receiveTransfer id =>
    ∀ t ∈ db.transfers, t.id = id → t.fromTankId ≠ tank ∧ t.toTankId ≠ tank
  | _ => True

instance (op : StockOp) : Decidable op.InScope :=
  match op with
  | .postMovement _ => inferInstanceAs (Decidable (_ ∨ _ ∨ _))
  | .setOpeningBalance _ | .reverseMovement _ | .receiveTransfer _ | .persistReconciliation _ _ _
  | .sealReconciliation _ _ => .isTrue trivial

instance (tank : Uuid) (db : StockDb) (op : StockOp) : Decidable (KeepsBook tank db op) :=
  match op with
  | .setOpeningBalance _ => inferInstanceAs (Decidable (_ → _ ∨ _))
  | .receiveTransfer _ => inferInstanceAs (Decidable (∀ t ∈ _, _ → _ ∧ _))
  | .postMovement _ | .reverseMovement _ | .persistReconciliation _ _ _
  | .sealReconciliation _ _ => .isTrue trivial

theorem bookInv_effect {op : StockOp} {res : Except StockError StockResult × StockDb × ℕ}
    (h : BookInv tank db n) (hsco : op.InScope) (hkeep : KeepsBook tank db op)
    (heff : Effect env db n op res) : BookInv tank res.2.1 res.2.2 := by
  cases heff with
  | refused hn => exact h.mono hn
  | opened hn hn' hins =>
    have hseq := insertMovement_seq hins
    refine h.insert (hn.trans hseq.ge) (hseq.trans_lt hn') (fun _ ↦ ?_) fun ht _ hsl ↦ ?_
    · rw [insertMovement_movementType hins]
      exact nofun
    · have htk := (insertMovement_tankId hins).symm.trans ht
      exact (hkeep htk).resolve_left fun hne ↦ hne hsl
  | posted hn hn' hins =>
    have hseq := insertMovement_seq hins
    have hty := insertMovement_movementType hins
    refine h.insert (hn.trans hseq.ge) (hseq.trans_lt hn') (fun _ htra ↦ ?_) fun _ hop ↦ ?_
    · rw [hty] at htra
      rcases hsco with hs | hs | hs <;> rw [hs] at htra <;> cases htra
    · rw [Movement.IsOpening, hty] at hop
      rcases hsco with hs | hs | hs <;> rw [hs] at hop <;> exact nomatch hop.1
  | @reversed id orig m n1 n' hn hn' horig hid hpd hins =>
    have hseq := insertMovement_seq hins
    refine (h.reverse id).insert (hn.trans hseq.ge) (hseq.trans_lt hn') (fun ht ↦ ?_)
      fun _ hop ↦ ?_
    · rw [insertMovement_movementType hins]
      have htk : orig.tankId = tank := (insertMovement_tankId hins).symm.trans ht
      exact h.noTransfer orig (mem_filter.mpr ⟨horig, by simpa using htk⟩)
    · exact absurd (insertMovement_sourceRefType hins) hop.2.2
  | @transferred id t out inn n1 n' hn hn' ht hid hout hinn =>
    obtain ⟨hfrom, hto⟩ := hkeep t ht hid
    have hseq := insertMovement_seq hout
    have hseq' := insertMovement_seq hinn
    have hout' : out.tankId ≠ tank := by rw [insertMovement_tankId hout]; exact hfrom
    have hinn' : inn.tankId ≠ tank := by rw [insertMovement_tankId hinn]; exact hto
    have h1 : BookInv tank (db.apply (.insertMovement out)) (n1 + 1) :=
      h.insert (by omega) (by omega) (absurd · hout') (absurd · hout')
    have h2 : BookInv tank ((db.apply (.insertMovement out)).apply (.insertMovement inn)) n' :=
      h1.insert (by omega) (by omega) (absurd · hinn') (absurd · hinn')
    exact ⟨h2.pos, h2.seqs, h2.keys, h2.noTransfer, h2.anchored, h2.genesis⟩
  | @drafted _ _ _ c r n1 n' hn hn' hup =>
    obtain ⟨-, hst, -⟩ := upsertDraft_eq_some hup
    obtain ⟨hid, huns⟩ := h.keys.of_upsertDraft hn hn' hup
    refine (h.mono (hn.trans hn'.le)).put hid huns fun _ hs ↦ ?_
    exact absurd (hst.symm.trans hs) c.status_ne_sealed
  | sealed hn hn1 hn' hget hop hrea hres hfig =>
    exact (h.sealed hn1 hn' (mem_of_find?_eq_some hget) hop hres hfig).1

variable (env)

/-- The closing book that `computeReconciliation` derives in the state `s`, when it gets that
far. -/
def derivedBook (tank : Uuid) (reads : DayReads) (s : StockDb × ℕ) : Option ℤ :=
  match ((handleReconciliationPreview env tank reads).alone s.1 [] s.2).1 with
  | .ok (.computed c) => some c.closingBook
  | _ => none

variable {env}

theorem BookInv.derivedBook (h : BookInv tank db n) {reads : DayReads}
    (hrea : reads.Admit phys tol) :
    Stock.derivedBook env tank reads (db, n) = some (db.currentBalance tank) := by
  rw [Stock.derivedBook, handleReconciliationPreview]
  obtain ⟨n', -, hrun⟩ := alone_computeReconciliation_eq db n tank
    (fun c ↦ (.commit (.computed c) : Txn env)) hrea
  rw [hrun]
  exact congrArg some (h.closingBook_figures env n phys tol)

theorem BookInv.start (hmov : db.movements = []) (hrec : db.reconciliations = []) :
    BookInv tank db 1 := by
  have hled : db.ledger tank = [] := by simp [StockDb.ledger, hmov]
  have hsl : db.sealedFor tank = [] := by simp [StockDb.sealedFor, hrec]
  refine ⟨Nat.one_pos, ?_, ⟨?_, ?_⟩, ?_, ?_, ?_⟩ <;> simp [hled, hsl, hrec]

/-- In every run that keeps the book of a tank, the closing book derived for the tank is the sum of
its ledger, in every state, and right after a seal that sum is the sealed physical figure. -/
theorem derivedBook_eq_currentBalance (tank : Uuid) {db₀ : StockDb} (hmov : db₀.movements = [])
    (hrec : db₀.reconciliations = []) {s : StockDb × ℕ}
    (h : Runs (StockOp.prog env) (fun db op ↦ op.InScope ∧ KeepsBook tank db op) (db₀, 1) s) :
    (∀ reads phys tol, reads.Admit phys tol →
      derivedBook env tank reads s = some (s.1.currentBalance tank)) ∧
    ∀ id reads r db' n', r.tankId = tank →
      (StockOp.prog env (.sealReconciliation id reads)).alone s.1 [] s.2
        = (.ok (.reconciliation r), db', n') →
      db'.currentBalance tank = r.closingPhysical := by
  have hinv : BookInv tank s.1 s.2 := by
    refine h.invariant (I := fun s ↦ BookInv tank s.1 s.2) (BookInv.start hmov hrec) ?_
    intro s op hs hop
    exact bookInv_effect hs hop.1 hop.2 (effect_alone env _ _ op)
  constructor
  · intro reads phys tol hrea
    exact hinv.derivedBook hrea
  · intro id reads r db' n' ht hrun
    have heff := effect_alone env s.1 s.2 (.sealReconciliation id reads)
    rw [hrun] at heff
    cases heff with
    | sealed hn hn1 hn' hget hopen hrea hres hfig =>
      exact (hinv.sealed hn1 hn' (mem_of_find?_eq_some hget) hopen hres hfig).2 ht

/-- An approved order to move 30 litres from tank 7 to tank 8. -/
def approvedTransfer : Transfer where
  id := 1
  fromTankId := 7
  toTankId := 8
  productId := 1
  litres := 30000
  status := .approved
  outMovementId := none
  inMovementId := none
  litres_pos := by decide
  tanks_ne := by decide

/-- A closing dip of 69 litres and a tolerance of two percent. -/
def dipOf69 : DayReads := ⟨0, some 69000, some 200⟩

/-- Tank 7 is opened with 100 litres and 30 of them are transferred out. The ledger sums to 70
litres; the derived book stays at 100. -/
theorem derivedBook_ne_of_transfer :
    ∃ s : StockDb × ℕ,
      Runs (StockOp.prog .plain) (fun _ op ↦ op.InScope)
        ({ StockDb.empty with transfers := [approvedTransfer] }, 1) s ∧
      dipOf69.Admit 69000 200 ∧
      derivedBook .plain 7 dipOf69 s ≠ some (s.1.currentBalance 7) := by
  have hrun : (runAll (StockOp.prog .plain) (fun _ op ↦ op.InScope)
      ({ StockDb.empty with transfers := [approvedTransfer] }, 1)
      [.setOpeningBalance ⟨7, 100, some .opening⟩, .receiveTransfer 1]).map
        (fun s ↦ (derivedBook .plain 7 dipOf69 s, s.1.currentBalance 7))
        = some (some 100000, 70000) := by
    decide +kernel
  obtain ⟨s, hs, hbook⟩ := map_eq_some_iff.mp hrun
  obtain ⟨hder, hbal⟩ := Prod.mk.inj hbook
  refine ⟨s, .of_runAll hs, ⟨rfl, rfl, rfl⟩, ?_⟩
  rw [hder, hbal]
  decide

/-- Opening, a sale of 30 litres, and a seal at the dip of 69 litres. -/
theorem derivedBook_eq_currentBalance_sealed :
    ∃ s : StockDb × ℕ,
      Runs (StockOp.prog .plain) (fun db op ↦ op.InScope ∧ KeepsBook 7 db op)
        (StockDb.empty, 1) s ∧
      (s.1.sealedFor 7).length = 1 ∧
      derivedBook .plain 7 dipOf69 s = some (s.1.currentBalance 7) := by
  have hrun : (runAll (StockOp.prog .plain) (fun db op ↦ op.InScope ∧ KeepsBook 7 db op)
      (StockDb.empty, 1)
      [.setOpeningBalance ⟨7, 100, some .opening⟩,
        .postMovement ⟨7, .sales, some .shift, some 40, -30, none⟩,
        .persistReconciliation 7 50 dipOf69,
        .sealReconciliation 9 dipOf69]).map (fun s ↦ (s.1.sealedFor 7).length) = some 1 := by
    decide +kernel
  obtain ⟨s, hs, hsl⟩ := map_eq_some_iff.mp hrun
  exact ⟨s, .of_runAll hs, hsl,
    (derivedBook_eq_currentBalance 7 rfl rfl (.of_runAll hs)).1 dipOf69 69000 200 ⟨rfl, rfl, rfl⟩⟩

end FuelGrid.Stock
