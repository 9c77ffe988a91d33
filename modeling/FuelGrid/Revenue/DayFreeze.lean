import FuelGrid.Revenue.Consistency

/-!
# The locked revenue day

`LockDay` freezes a revenue day: `ComputeDay` does not write it again. But the sums of the day are
taken over the payments and the voids, and neither a payment on a shift of the day nor the approval
of a void of one of its sales asks whether the day is locked; and `LockDay` does not ask whether the
draft is still what the day sums to.
-/

namespace FuelGrid.Revenue

open Sql

/-- The stored figures of every locked day are what `DaySummary` and `DayTenders` return for it. -/
def FreezeLaw (db : RevenueDb) : Prop :=
  ∀ d ∈ db.revenueDays, d.status = .locked →
    d.revenue = (db.daySummary d.stationId d.operatingDayId).toDayRevenue ∧
      d.tenders = db.dayTenders d.stationId d.operatingDayId
  deriving Decidable

def RevenueDb.DayLocked (db : RevenueDb) (station day : Uuid) : Prop :=
  ∃ d ∈ db.revenueDays, d.status = .locked ∧ d.stationId = station ∧ d.operatingDayId = day
  deriving Decidable

/-- What the handlers do not check: a payment is not for a shift of a locked day, a void is not
approved for a sale of one, and a draft that is locked is up to date. -/
def LeavesLockedDays (db : RevenueDb) : RevenueOp → Prop
  | .recordPayment req => ∀ sh ∈ db.shifts, sh.id = req.shiftId →
      ¬db.DayLocked sh.stationId sh.operatingDayId
  | .decideVoid .approve _ id _ => ∀ v ∈ db.voids, v.id = id → ∀ s ∈ db.sales, s.id = v.saleId →
      ¬db.DayLocked s.stationId s.operatingDayId
  | .lockDay _ id _ => ∀ d ∈ db.revenueDays, d.id = id → d.Current db
  | _ => True

instance (db : RevenueDb) : DecidablePred (LeavesLockedDays db)
  | .recordPayment req => inferInstanceAs (Decidable (∀ sh ∈ db.shifts, sh.id = req.shiftId →
      ¬db.DayLocked sh.stationId sh.operatingDayId))
  | .decideVoid .approve _ id _ => inferInstanceAs (Decidable (∀ v ∈ db.voids, v.id = id →
      ∀ s ∈ db.sales, s.id = v.saleId → ¬db.DayLocked s.stationId s.operatingDayId))
  | .lockDay _ id _ => inferInstanceAs (Decidable (∀ d ∈ db.revenueDays, d.id = id → d.Current db))
  | .decideVoid .reject _ _ _ | .requestVoid _ _ _ | .mpesaCallback _ | .reconcileMpesa _ _ _ _
  | .computeDay _ _ => inferInstanceAs (Decidable True)

variable {d : RevenueDay}

section Frame

variable {db db' : RevenueDb} {station day : Uuid}

theorem RevenueDay.Current.congr (h : d.Current db)
    (hsal : db'.daySales d.stationId d.operatingDayId = db.daySales d.stationId d.operatingDayId)
    (hpays : db'.dayPayments d.stationId d.operatingDayId
      = db.dayPayments d.stationId d.operatingDayId) : d.Current db' := by
  constructor
  · rw [RevenueDb.dayRevenue, hsal]
    exact h.revenue
  · rw [RevenueDb.dayTenders, hpays]
    exact h.tenders

theorem SameBooks.current (hsm : SameBooks db db') (h : d.Current db) : d.Current db' := by
  refine h.congr ?_ ?_
  · simp only [RevenueDb.daySales, hsm.sales, hsm.voids]
  · have hshs : db'.shiftsOfDay d.operatingDayId = db.shiftsOfDay d.operatingDayId := by
      rw [RevenueDb.shiftsOfDay, hsm.shifts, ← RevenueDb.shiftsOfDay]
    rw [RevenueDb.dayPayments, RevenueDb.dayPayments, hsm.payments]
    refine filter_congr fun p _ ↦ ?_
    rw [decide_eq_decide, hshs]

/-- A payment counts for the day of its shift and its station only. -/
theorem dayPayments_insertPayment (hshs : (db.shifts.map (·.id)).Nodup) {p : Payment}
    {shift : Shift} (hshi : shift ∈ db.shifts) (hp : p.shiftId = some shift.id)
    (hstn : p.stationId = shift.stationId)
    (hoth : ¬(shift.stationId = station ∧ shift.operatingDayId = day)) :
    (db.apply (.insertPayment p)).dayPayments station day = db.dayPayments station day := by
  have hnot : ¬(p.stationId = station ∧ p.status = .recorded ∧
      ∃ sh ∈ db.shiftsOfDay day, p.shiftId = some sh) := by
    rintro ⟨hst, -, id, hid, heq⟩
    obtain ⟨sh, hsh, rfl⟩ := mem_map.mp hid
    obtain ⟨hsh, hday⟩ := mem_filter.mp hsh
    rw [inj_on_of_nodup_map hshs hsh hshi (some.inj (heq.symm.trans hp))] at hday
    exact hoth ⟨hstn.symm.trans hst, of_decide_eq_true hday⟩
  calc (db.apply (.insertPayment p)).dayPayments station day
      = db.dayPayments station day ++ [p].filter fun p ↦ p.stationId = station ∧
          p.status = .recorded ∧ ∃ sh ∈ db.shiftsOfDay day, p.shiftId = some sh :=
        filter_append _ _
    _ = db.dayPayments station day := by
        rw [filter_cons_of_neg (by simpa only [decide_eq_true_eq] using hnot),
          List.filter_nil, append_nil]

/-- A void counts for the day of its sale, once it is approved. -/
theorem daySales_putVoid {v : SaleVoid}
    (hnew : v.status = .approved → ∀ s ∈ db.sales, s.id = v.saleId →
      ¬(s.stationId = station ∧ s.operatingDayId = day))
    (hold : ∀ w ∈ db.voids, w.id = v.id → w.status ≠ .approved) :
    (db.apply (.putVoid v)).daySales station day = db.daySales station day := by
  refine leftJoin_congr _ _ _ fun s hs ↦ ?_
  obtain ⟨hs, hday⟩ := mem_filter.mp hs
  rw [filter_filter, filter_filter]
  refine filter_putRow ?_ fun w hw hid ↦ ?_
  · rw [← Bool.decide_and, decide_eq_false]
    rintro ⟨hsl, hst⟩
    exact hnew hst s hs hsl.symm (of_decide_eq_true hday)
  · rw [decide_eq_false (hold w hw hid), Bool.and_false]

end Frame

/-! ## Runs

The stored figures stay those of the day in every run that meets `LeavesLockedDays`. -/

/-- The law and what it needs: the rows refer to each other properly and have unique ids. -/
structure FreezeInv (db : RevenueDb) (n : ℕ) : Prop extends Consistent db, DrawnBefore db n where
  frozen : ∀ d ∈ db.revenueDays, d.status = .locked → d.Current db

section Step

variable {db db' : RevenueDb} {n n' : ℕ} {op : RevenueOp}

theorem Effect.current (heff : Effect db n n' op db') (h : FreezeInv db n)
    (hop : LeavesLockedDays db op) (hd : d ∈ db.revenueDays) (hlck : d.status = .locked) :
    d.Current db' := by
  have hcur := h.frozen d hd hlck
  have hday : db.DayLocked d.stationId d.operatingDayId := ⟨d, hd, hlck, rfl, rfl⟩
  rcases heff with _ | ⟨hsh, hid, hpsh, hstn⟩ | ⟨hn, -, hv⟩ | @⟨decision, _, _, v, v', hv⟩ |
    _ | _
  · exact hcur
  · refine hcur.congr rfl (dayPayments_insertPayment h.shift_ids hsh hpsh hstn ?_)
    rintro ⟨hst, hdayId⟩
    exact hop _ hsh hid (hst ▸ hdayId ▸ hday)
  · refine hcur.congr (daySales_putVoid (fun happ ↦ ?_) fun w hw hid ↦ ?_) rfl
    · rw [hv.status] at happ
      cases happ
    · -- the id is new
      exact absurd (h.voids w hw) (hid ▸ Nat.not_lt.mpr hn)
  · refine hcur.congr (daySales_putVoid (fun happ s hs hsl ↦ ?_) fun w hw hid ↦ ?_) rfl
    · rintro ⟨hst, hdayId⟩
      obtain rfl := hv.approve happ
      exact hop v hv.mem rfl s hs (hsl.trans hv.saleId) (hst ▸ hdayId ▸ hday)
    · rw [inj_on_of_nodup_map h.void_ids hw hv.mem (hid.trans hv.id), hv.requested]
      decide
  · exact hcur.congr rfl rfl
  · exact hcur.congr rfl rfl

theorem FreezeInv.effect (h : FreezeInv db n) (hn : n ≤ n') (heff : Effect db n n' op db')
    (hop : LeavesLockedDays db op) : FreezeInv db' n' := by
  refine { heff.consistent h.toConsistent, heff.drawnBefore hn h.toDrawnBefore with
    frozen := fun d hd hlck ↦ ?_ }
  have hkt : ∀ d ∈ db.revenueDays, d.status = .locked → d.Current db' :=
    fun d ↦ heff.current h hop
  rcases heff with _ | _ | _ | _ | ⟨hcom⟩ | ⟨hd0, -⟩
  · exact hkt d hd hlck
  · exact hkt d hd hlck
  · exact hkt d hd hlck
  · exact hkt d hd hlck
  · rcases mem_putRow hd with rfl | ⟨hd, -⟩
    · rw [hcom.status] at hlck
      cases hlck
    · exact hkt d hd hlck
  · rcases mem_putRow hd with rfl | ⟨hd, -⟩
    · have hcur := hop _ hd0 rfl
      exact ⟨hcur.revenue, hcur.tenders⟩
    · exact hkt d hd hlck

theorem FreezeInv.congr (h : FreezeInv db n) (hsm : SameBooks db db') : FreezeInv db' n where
  toConsistent := h.toConsistent.congr hsm
  voids := hsm.voids ▸ h.voids
  revenueDays := hsm.revenueDays ▸ h.revenueDays
  frozen d hd hlck := hsm.current (h.frozen d (hsm.revenueDays ▸ hd) hlck)

end Step

/-- In every run that keeps clear of the locked days and locks drafts that are up to date, the
figures of the locked days stay those of the day. -/
theorem frozen_of_leavesLockedDays {env : Env} {db : RevenueDb} {n : ℕ} {s : RevenueDb × ℕ}
    (hdb : Consistent db) (hids : DrawnBefore db n) (hlaw : FreezeLaw db)
    (hrun : Runs (S := schema env) (RevenueOp.prog env) LeavesLockedDays (db, n) s) :
    FreezeLaw s.1 := by
  have hinit : FreezeInv db n :=
    { hdb, hids with frozen := fun d hd hlck ↦ ⟨(hlaw d hd hlck).1, (hlaw d hd hlck).2⟩ }
  have hinv : FreezeInv s.1 s.2 :=
    Runs.invariant (I := fun s ↦ FreezeInv s.1 s.2) hrun hinit fun s op hs hop ↦ by
      obtain ⟨db', heff, hsm⟩ := op.effect env s.1 s.2
      exact (hs.effect (Prog.le_alone_stamp _ _ _ _) heff hop).congr hsm
  exact fun d hd hlck ↦ ⟨(hinv.frozen d hd hlck).revenue, (hinv.frozen d hd hlck).tenders⟩

/-- Execute a request in a state. -/
def RevenueOp.after (op : RevenueOp) (s : RevenueDb × ℕ) : RevenueDb × ℕ :=
  ((op.prog .plain).alone s.1 [] s.2).2

/-- The day is locked after its sale is paid; a void that is requested and rejected changes
nothing. -/
theorem frozen_of_leavesLockedDays_rejected :
    ∃ s, Runs (S := schema .plain) (RevenueOp.prog .plain) LeavesLockedDays (oneSale, 1) s ∧
      s.1.DayLocked 1 3 ∧ s.1.voids.length = 1 ∧ FreezeLaw s.1 := by
  refine exists_and_imp (fun s ↦ s.1.DayLocked 1 3 ∧ s.1.voids.length = 1)
    (exists_of_runAll [.recordPayment (pay 100), .computeDay 1 3, .lockDay 9 6 20,
    .requestVoid 8 5 "wrong pump", .decideVoid .reject 9 12 none] (by decide +kernel)) ?_
  rintro _ hrun ⟨hlck, hvoi⟩
  exact ⟨hlck, hvoi, frozen_of_leavesLockedDays consistent_oneSale
    ⟨fun v hv ↦ absurd hv not_mem_nil, fun d hd ↦ absurd hd not_mem_nil⟩
    (fun d hd ↦ absurd hd not_mem_nil) hrun⟩

/-- The day is computed and locked. A payment on its shift is accepted after that, and so is the
void of its sale; each of them moves the sums away from the locked figures. -/
theorem not_frozen_after_lock :
    ∃ s, Runs (S := schema .plain) (RevenueOp.prog .plain) (fun _ _ ↦ True) (oneSale, 1) s ∧
      s.1.DayLocked 1 3 ∧ FreezeLaw s.1 ∧
      ¬FreezeLaw ((RevenueOp.recordPayment (pay 40)).after s).1 ∧
      ¬FreezeLaw ((RevenueOp.decideVoid .approve 9 2 none).after s).1 :=
  exists_of_runAll [.requestVoid 8 5 "wrong pump", .computeDay 1 3, .lockDay 9 5 20]
    (by decide +kernel)

end FuelGrid.Revenue
