import FuelGrid.Stock.BookStock

/-!
# Balance forward

Each operating day's physical closing carries forward as the next day's opening. The code picks the
opening from the sealed reconciliation with the highest watermark, and watermarks grow in the order
of the seals, not of the days. So the law holds in runs that seal each tank's days in the order of
their business dates (`balanceForward_of_sealsForward`), and sealing a day after a later one breaks
it.
-/

namespace FuelGrid.Stock

open Sql

/- The business date of each operating day. -/
variable (cal : Uuid → ℤ) {n0 : ℕ}

abbrev Reconciliation.date (r : Reconciliation) : ℤ := cal r.operatingDayId

/-- Each sealed reconciliation of the tank opens with the closing of the one with the next earlier
business date. -/
def StockDb.BalanceForward (db : StockDb) (tank : Uuid) : Prop :=
  ∀ r ∈ db.sealedFor tank, ∀ p ∈ db.sealedFor tank, p.date cal < r.date cal →
    (∀ x ∈ db.sealedFor tank, p.date cal < x.date cal → r.date cal ≤ x.date cal) →
    r.openingBook = p.closingPhysical
  deriving Decidable

/-- A seal is for a day later than every sealed day of the tank. -/
def SealsForward (tank : Uuid) (db : StockDb) : StockOp → Prop
  | .sealReconciliation id _ => ∀ r ∈ db.reconciliations, r.id = id → r.tankId = tank →
      ∀ p ∈ db.sealedFor tank, p.date cal < r.date cal
  | _ => True

instance (tank : Uuid) (db : StockDb) (op : StockOp) : Decidable (SealsForward cal tank db op) :=
  match op with
  | .sealReconciliation _ _ => inferInstanceAs (Decidable (∀ r ∈ _, _ → _ → ∀ p ∈ _, _))
  | .setOpeningBalance _ | .postMovement _ | .reverseMovement _ | .receiveTransfer _
  | .persistReconciliation _ _ _ => .isTrue trivial

/-! ## Watermarks

Two seals can share a watermark, when the second finds no new movement and nothing to write off. The
choice between them is then open, but it does not matter: their physical figures are equal
(`ForwardInv.ties`). -/

private theorem maxSeq_le {l : List Movement} {d b : ℕ} (hd : d ≤ b) (h : ∀ m ∈ l, m.seq ≤ b) :
    maxSeq d l ≤ b :=
  Nat.lt_succ_iff.mp (maxSeq_lt (Nat.lt_succ_of_le hd) fun m hm ↦ Nat.lt_succ_of_le (h m hm))

/-- What the sealed reconciliations of a tank have in common with its ledger. -/
structure ForwardInv (tank : Uuid) (db : StockDb) (n : ℕ) : Prop where
  pos : 0 < n
  seqs : ∀ m ∈ db.ledger tank, m.seq < n
  keys : KeyedBelow n db.reconciliations
  through : ∀ r ∈ db.sealedFor tank, r.throughSeq ≤ maxSeq 0 (db.ledger tank)
  /-- Equal watermarks, equal physical figures. -/
  ties : ∀ r ∈ db.sealedFor tank, ∀ r' ∈ db.sealedFor tank, r.throughSeq = r'.throughSeq →
    r.closingPhysical = r'.closingPhysical
  /-- Watermarks grow with the business date. -/
  ordered : ∀ r ∈ db.sealedFor tank, ∀ r' ∈ db.sealedFor tank, r.date cal ≤ r'.date cal →
    r.throughSeq ≤ r'.throughSeq
  forward : db.BalanceForward cal tank

variable {cal} {env : Env} {tank : Uuid} {db db' db1 : StockDb} {n n' n1 : ℕ} {r p : Reconciliation}

section ForwardInv

variable (h : ForwardInv cal tank db n)

include h

theorem ForwardInv.grow (hrec : db'.reconciliations = db.reconciliations) (hn : n ≤ n')
    (hgrow : ∀ m ∈ db.ledger tank, m.seq ≤ maxSeq 0 (db'.ledger tank))
    (hseqs : ∀ m ∈ db'.ledger tank, m.seq < n') : ForwardInv cal tank db' n' := by
  have hsl : db'.sealedFor tank = db.sealedFor tank := by
    rw [StockDb.sealedFor, StockDb.sealedFor, hrec]
  refine ⟨h.pos.trans_le hn, hseqs, ?_, ?_, ?_, ?_, ?_⟩
  · rw [hrec]
    exact h.keys.mono hn
  · rw [hsl]
    exact fun r hr ↦ (h.through r hr).trans (maxSeq_le (Nat.zero_le _) hgrow)
  · rw [hsl]
    exact h.ties
  · rw [hsl]
    exact h.ordered
  · rw [StockDb.BalanceForward, hsl]
    exact h.forward

theorem ForwardInv.mono (hn : n ≤ n') : ForwardInv cal tank db n' :=
  h.grow rfl hn (fun _ hm ↦ le_maxSeq 0 hm) fun m hm ↦ (h.seqs m hm).trans_le hn

theorem ForwardInv.insert {m : Movement} (hn : n ≤ m.seq) (hn' : m.seq < n') :
    ForwardInv cal tank (db.apply (.insertMovement m)) n' := by
  refine h.grow rfl (hn.trans hn'.le) (fun m' hm' ↦ ?_) fun m' hm' ↦ ?_
  · rw [ledger_insert]
    exact le_maxSeq 0 (mem_append_left _ hm')
  · rcases mem_ledger_insert hm' with hold | ⟨rfl, -⟩
    · exact (h.seqs m' hold).trans (hn.trans_lt hn')
    · exact hn'

theorem ForwardInv.reverse (id : Uuid) : ForwardInv cal tank (db.apply (.markReversed id)) n := by
  refine h.grow rfl le_rfl (fun m hm ↦ ?_) fun m' hm' ↦ ?_
  · rw [ledger_markReversed, ← Movement.reverse_seq id m]
    exact le_maxSeq 0 (mem_map_of_mem hm)
  · rw [ledger_markReversed] at hm'
    obtain ⟨m, hm, rfl⟩ := mem_map.mp hm'
    rw [Movement.reverse_seq]
    exact h.seqs m hm

theorem ForwardInv.put (hid : r.id < n)
    (hold : ∀ x ∈ db.reconciliations, x.id = r.id → x.status ≠ .sealed)
    (hop : ¬(r.tankId = tank ∧ r.status = .sealed)) :
    ForwardInv cal tank (db.apply (.putReconciliation r)) n := by
  have hmem : ∀ x, x ∈ (db.apply (.putReconciliation r)).sealedFor tank ↔
      x ∈ db.sealedFor tank := by
    intro x
    rw [mem_sealedFor_put hold]
    exact or_iff_right fun hx ↦ hop hx.2
  have hled : (db.apply (.putReconciliation r)).ledger tank = db.ledger tank := rfl
  refine ⟨h.pos, h.seqs, h.keys.put hid, ?_, ?_, ?_, ?_⟩
  · simpa only [hmem, hled] using h.through
  · simpa only [hmem] using h.ties
  · simpa only [hmem] using h.ordered
  · simpa only [StockDb.BalanceForward, hmem] using h.forward

end ForwardInv

/-- When the tank has been sealed before, the anchor is a sealed row with the highest watermark. -/
theorem exists_anchor (env : Env) (hp : p ∈ db.sealedFor tank) (n0 : ℕ) :
    ∃ a ∈ db.sealedFor tank, db.anchor env tank n0 = (a.closingPhysical, a.throughSeq) ∧
      ∀ x ∈ db.sealedFor tank, x.throughSeq ≤ a.throughSeq := by
  cases hpick : env.pick n0 (db.sealedFor tank) with
  | none =>
    rw [pick_eq_none hpick] at hp
    cases hp
  | some a =>
    obtain ⟨ha, hmax⟩ := mem_of_pick hpick
    exact ⟨a, ha, by rw [StockDb.anchor, hpick], hmax⟩

/-- The opening book of a new seal is the closing of the sealed row with the latest date. -/
theorem ForwardInv.anchor_eq (env : Env) (h : ForwardInv cal tank db n)
    (hp : p ∈ db.sealedFor tank) (hlast : ∀ x ∈ db.sealedFor tank, x.date cal ≤ p.date cal)
    (n0 : ℕ) : (db.anchor env tank n0).1 = p.closingPhysical := by
  obtain ⟨a, ha, hanc, hmax⟩ := exists_anchor env hp n0
  rw [hanc]
  exact h.ties a ha p hp (le_antisymm (h.ordered a ha p hp (hlast a ha)) (hmax p hp))

section Sealed

variable (h : ForwardInv cal tank db n) (hn : n ≤ n1)

include h hn

/-- A seal that ends on the watermark of an earlier one had nothing to count and nothing to write
off. -/
theorem ForwardInv.closing_eq_of_tie {x : Reconciliation} {phys tol : ℤ} (htk : r.tankId = tank)
    (hres : Residual db n1 r (db.figures env r.tankId n0 phys tol) db1) (hx : x ∈ db.sealedFor tank)
    (htie : x.throughSeq = maxSeq 0 (db1.ledger tank)) : x.closingPhysical = phys := by
  subst htk
  cases hres with
  | none hz =>
    obtain ⟨a, ha, hanc, hmax⟩ := exists_anchor env hx n0
    have hthr : a.throughSeq = x.throughSeq :=
      le_antisymm (htie ▸ h.through a ha) (hmax x hx)
    have hper : (db.ledger r.tankId).filter (a.throughSeq < ·.seq) = [] := by
      rw [filter_eq_nil_iff]
      intro m hm
      rw [hthr, htie]
      simpa using le_maxSeq 0 hm
    have hbook : (db.figures env r.tankId n0 phys tol).closingBook = a.closingPhysical := by
      simp only [StockDb.figures, closingBook_compute, hanc, hper]
      simp
    have hoff : phys - (db.figures env r.tankId n0 phys tol).closingBook = 0 := hz
    have hties := h.ties a ha x hx hthr
    omega
  | @posted m hins =>
    -- the write-off row is beyond every earlier watermark
    have hmta : m.tankId = r.tankId := insertMovement_tankId hins
    have hm : m ∈ (db.apply (.insertMovement m)).ledger r.tankId := by
      rw [ledger_insert, if_pos hmta]
      exact mem_append_right _ mem_cons_self
    have hge := le_maxSeq 0 hm
    have hlt := (h.through x hx).trans_lt (maxSeq_lt h.pos h.seqs)
    rw [insertMovement_seq hins] at hge
    omega

theorem ForwardInv.residual {c : Computed} (hn' : n1 < n') (hres : Residual db n1 r c db1) :
    ForwardInv cal tank db1 n' ∧ db1.reconciliations = db.reconciliations := by
  cases hres with
  | none hz => exact ⟨h.mono (hn.trans hn'.le), rfl⟩
  | posted hins =>
    have hseq := insertMovement_seq hins
    exact ⟨h.insert (hn.trans hseq.ge) (hseq.trans_lt hn'), rfl⟩

/-- Sealing a day later than all sealed days of the tank extends the chain. -/
theorem ForwardInv.sealed {phys tol : ℤ} {fig : Figures} (hn' : n1 < n')
    (hr : r ∈ db.reconciliations) (hop : r.status ≠ .sealed)
    (hlat : r.tankId = tank → ∀ p ∈ db.sealedFor tank, p.date cal < r.date cal)
    (hres : Residual db n1 r (db.figures env r.tankId n0 phys tol) db1) (hfig : DraftInput.figures
      { (db.figures env r.tankId n0 phys tol).draftInput r.tankId r.operatingDayId .sealed with
        throughSeq := maxSeq 0 (db1.ledger r.tankId) } = some fig) : ForwardInv cal tank
      (db1.apply (.putReconciliation { r with toFigures := fig, status := .sealed })) n' := by
  obtain ⟨hbook, -, hphys, hthr⟩ := DraftInput.figures_eq_some hfig
  obtain ⟨h1, hrecs⟩ := h.residual hn hn' hres
  have hsl : db1.sealedFor tank = db.sealedFor tank := by
    rw [StockDb.sealedFor, StockDb.sealedFor, hrecs]
  have hid : r.id < n' := (h.keys.below r hr).trans_le (hn.trans hn'.le)
  have hold : ∀ x ∈ db1.reconciliations, x.id = r.id → x.status ≠ .sealed := by
    rw [hrecs]
    exact h.keys.unsealed (.inr ⟨r, hr, rfl, hop⟩)
  by_cases htk : r.tankId = tank
  swap
  · exact h1.put hid hold fun hs ↦ htk hs.1
  have hlat := hlat htk
  set r' : Reconciliation := { r with toFigures := fig, status := .sealed }
  have hmem : ∀ x, x ∈ (db1.apply (.putReconciliation r')).sealedFor tank ↔
      x = r' ∨ x ∈ db.sealedFor tank := by
    intro x
    rw [mem_sealedFor_put (r := r') hold, hsl]
    exact or_congr_left (and_iff_left ⟨htk, rfl⟩)
  have hthr' : r'.throughSeq = maxSeq 0 (db1.ledger tank) := by rw [← htk]; exact hthr
  have habo : ∀ x ∈ db.sealedFor tank, x.throughSeq ≤ r'.throughSeq := fun x hx ↦ by
    rw [hthr']
    exact h1.through x (hsl ▸ hx)
  have hties : ∀ x ∈ db.sealedFor tank, x.throughSeq = r'.throughSeq →
      x.closingPhysical = r'.closingPhysical := fun x hx htie ↦
    (h.closing_eq_of_tie hn htk hres hx (htie.trans hthr')).trans hphys.symm
  refine ⟨h1.pos, h1.seqs, h1.keys.put hid, ?_, ?_, ?_, ?_⟩
  · intro x hx
    rcases (hmem x).mp hx with rfl | hx
    · exact hthr'.le
    · exact (habo x hx).trans hthr'.le
  · intro x hx y hy htie
    rcases (hmem x).mp hx with rfl | hx <;> rcases (hmem y).mp hy with rfl | hy
    · rfl
    · exact (hties y hy htie.symm).symm
    · exact hties x hx htie
    · exact h.ties x hx y hy htie
  · intro x hx y hy hdate
    rcases (hmem x).mp hx with rfl | hx <;> rcases (hmem y).mp hy with rfl | hy
    · exact le_rfl
    · exact absurd hdate (hlat y hy).not_ge
    · exact habo x hx
    · exact h.ordered x hx y hy hdate
  · intro x hx p hp hdate hnx
    rcases (hmem x).mp hx with rfl | hx <;> rcases (hmem p).mp hp with rfl | hp
    · exact absurd hdate (lt_irrefl _)
    · have hlast : ∀ y ∈ db.sealedFor tank, y.date cal ≤ p.date cal := fun y hy ↦
        not_lt.mp fun hlt ↦
          (hlat y hy).not_ge (hnx y ((hmem y).mpr (.inr hy)) hlt)
      rw [← h.anchor_eq env hp hlast n0, ← htk]
      exact hbook
    · exact absurd hdate (hlat x hx).not_gt
    · exact h.forward x hx p hp hdate fun y hy ↦ hnx y ((hmem y).mpr (.inr hy))

end Sealed

theorem forwardInv_effect {op : StockOp} {res : Except StockError StockResult × StockDb × ℕ}
    (h : ForwardInv cal tank db n) (hop : SealsForward cal tank db op)
    (heff : Effect env db n op res) : ForwardInv cal tank res.2.1 res.2.2 := by
  cases heff with
  | refused hn => exact h.mono hn
  | opened hn hn' hins =>
    have hseq := insertMovement_seq hins
    exact h.insert (hn.trans hseq.ge) (hseq.trans_lt hn')
  | posted hn hn' hins =>
    have hseq := insertMovement_seq hins
    exact h.insert (hn.trans hseq.ge) (hseq.trans_lt hn')
  | @reversed id _ _ _ _ hn hn' _ _ _ hins =>
    have hseq := insertMovement_seq hins
    exact (h.reverse id).insert (hn.trans hseq.ge) (hseq.trans_lt hn')
  | @transferred _ _ out inn n1 n' hn hn' _ _ hout hinn =>
    have hseq := insertMovement_seq hout
    have hseq' := insertMovement_seq hinn
    have h1 : ForwardInv cal tank (db.apply (.insertMovement out)) (n1 + 1) :=
      h.insert (hn.trans hseq.ge) (hseq.trans_lt (lt_succ_self n1))
    have h2 : ForwardInv cal tank _ n' := h1.insert hseq'.ge (hseq'.trans_lt hn')
    exact ⟨h2.pos, h2.seqs, h2.keys, h2.through, h2.ties, h2.ordered, h2.forward⟩
  | @drafted _ _ _ c r n1 n' hn hn' hup =>
    obtain ⟨-, hst, -⟩ := upsertDraft_eq_some hup
    obtain ⟨hid, huns⟩ := h.keys.of_upsertDraft hn hn' hup
    refine (h.mono (hn.trans hn'.le)).put hid huns fun hs ↦ ?_
    exact c.status_ne_sealed (hst.symm.trans hs.2)
  | sealed hn hn1 hn' hget hopen hrea hres hfig =>
    have hmem := mem_of_find?_eq_some hget
    have hid := find?_some hget
    exact h.sealed hn1 hn' hmem hopen (hop _ hmem (by simpa using hid)) hres hfig

theorem ForwardInv.start (hmov : db.movements = []) (hrec : db.reconciliations = []) :
    ForwardInv cal tank db 1 := by
  have hled : db.ledger tank = [] := by simp [StockDb.ledger, hmov]
  have hsl : db.sealedFor tank = [] := by simp [StockDb.sealedFor, hrec]
  refine ⟨Nat.one_pos, ?_, ⟨?_, ?_⟩, ?_, ?_, ?_, ?_⟩ <;>
    simp [hled, hsl, hrec, StockDb.BalanceForward]

/-- If the days of a tank are sealed in the order of their business dates, then each sealed
reconciliation opens with the closing of the previous day's, after any run of ledger and
reconciliation operations. -/
theorem balanceForward_of_sealsForward (tank : Uuid) {db₀ : StockDb} (hmov : db₀.movements = [])
    (hrec : db₀.reconciliations = []) {s : StockDb × ℕ}
    (h : Runs (StockOp.prog env) (SealsForward cal tank) (db₀, 1) s) :
    s.1.BalanceForward cal tank := by
  have hinv : ForwardInv cal tank s.1 s.2 := by
    refine h.invariant (I := fun s ↦ ForwardInv cal tank s.1 s.2) (.start hmov hrec) ?_
    intro s op hs hop
    exact forwardInv_effect hs hop (effect_alone env _ _ op)
  exact hinv.forward

/-- Two days of a tank opened with 100 litres: the earlier one with a dip of 99, the later one with
a dip of 100. -/
def twoDays : List StockOp :=
  [.setOpeningBalance ⟨7, 100, some .opening⟩,
    .persistReconciliation 7 50 ⟨0, some 99000, some 200⟩,
    .persistReconciliation 7 51 ⟨0, some 100000, some 200⟩]

/-- The later day is sealed first, so the earlier one takes its opening from it and the chain by
date is broken: the later day opens with 100 while the earlier closed with 99. -/
theorem not_balanceForward_of_late_seal :
    ∃ s : StockDb × ℕ,
      Runs (StockOp.prog .plain) (fun _ _ ↦ True) (StockDb.empty, 1) s ∧
      ¬s.1.BalanceForward (fun day ↦ day) 7 := by
  have hrun : (runAll (StockOp.prog .plain) (fun _ _ ↦ True) (StockDb.empty, 1)
      (twoDays ++ [.sealReconciliation 12 ⟨0, some 100000, some 200⟩,
        .sealReconciliation 7 ⟨0, some 99000, some 200⟩])).map
        (fun s ↦ decide (s.1.BalanceForward (fun day ↦ day) 7)) = some false := by
    decide +kernel
  obtain ⟨s, hs, hbad⟩ := map_eq_some_iff.mp hrun
  exact ⟨s, .of_runAll hs, of_decide_eq_false hbad⟩

/-- The same two days sealed in order. -/
theorem balanceForward_of_sealsForward_twoDays :
    ∃ s : StockDb × ℕ,
      Runs (StockOp.prog .plain) (SealsForward (fun day ↦ day) 7) (StockDb.empty, 1) s ∧
      (s.1.sealedFor 7).length = 2 ∧ s.1.BalanceForward (fun day ↦ day) 7 := by
  have hrun : (runAll (StockOp.prog .plain) (SealsForward (fun day ↦ day) 7) (StockDb.empty, 1)
      (twoDays ++ [.sealReconciliation 7 ⟨0, some 99000, some 200⟩,
        .sealReconciliation 12 ⟨0, some 100000, some 200⟩])).map
        (fun s ↦ (s.1.sealedFor 7).length) = some 2 := by
    decide +kernel
  obtain ⟨s, hs, hsl⟩ := map_eq_some_iff.mp hrun
  exact ⟨s, .of_runAll hs, hsl, balanceForward_of_sealsForward 7 rfl rfl (.of_runAll hs)⟩

end FuelGrid.Stock
