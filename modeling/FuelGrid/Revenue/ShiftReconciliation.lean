import FuelGrid.Revenue.Consistency

/-!
# Shift reconciliations and the revenue day

`ReconcileShift` holds the tenders of a shift against its sales, `ComputeDay` those of a day against
its sales net of approved voids.
-/

namespace FuelGrid.Revenue

open Sql

/-! ## The two sides

The tenders of the day are those of its shifts, sale by sale and payment by payment, but a void that
is approved takes its sale out of the day and not out of the shift. -/

namespace RevenueDb

variable (db : RevenueDb)

/-- The sums over the shifts of a day of what `ReconcileShift` returns. -/
def shiftTotals (day : Uuid) : ShiftReconciliation where
  tendered := ((db.shiftsOfDay day).map fun sh ↦ (db.reconcileShift sh).tendered).sum
  recognized := ((db.shiftsOfDay day).map fun sh ↦ (db.reconcileShift sh).recognized).sum
  variance := ((db.shiftsOfDay day).map fun sh ↦ (db.reconcileShift sh).variance).sum

def salesOfDay (station day : Uuid) : List Sale :=
  db.sales.filter fun s ↦ s.stationId = station ∧ s.operatingDayId = day

def Voided (s : Sale) : Prop := ∃ v ∈ db.voids, v.status = .approved ∧ v.saleId = s.id

instance : DecidablePred db.Voided := fun s ↦
  inferInstanceAs (Decidable (∃ v ∈ db.voids, v.status = .approved ∧ v.saleId = s.id))

/-- The voided sales of the day amount to nothing, or the gross of the day is `NaN` anyway. -/
def VoidsAmountToNothing (station day : Uuid) : Prop :=
  (∃ s ∈ db.salesOfDay station day, s.grossAmount = ⊤) ∨
    (((db.salesOfDay station day).filter (db.Voided ·)).map (·.grossAmount)).sum = 0

end RevenueDb

section Sides

variable {db : RevenueDb} {od : OperatingDay} {s : Sale}

theorem mem_shiftsOfDay {day id : Uuid} :
    id ∈ db.shiftsOfDay day ↔ ∃ sh ∈ db.shifts, sh.operatingDayId = day ∧ sh.id = id := by
  simp only [RevenueDb.shiftsOfDay, mem_map, mem_filter, decide_eq_true_eq, and_assoc]

section Consistent

variable (h : Consistent db)

include h

theorem Consistent.nodup_shiftsOfDay (day : Uuid) : (db.shiftsOfDay day).Nodup :=
  h.shift_ids.sublist (filter_sublist.map _)

section Od

variable (hod : od ∈ db.days)

include hod

/-- A sale is on a shift of the day just if it is one of the station-day's. -/
theorem Consistent.sale_mem_shiftsOfDay (hs : s ∈ db.sales) :
    s.shiftId ∈ db.shiftsOfDay od.id ↔ s.stationId = od.stationId ∧ s.operatingDayId = od.id := by
  obtain ⟨sh, hsh, hid, hstn, hday⟩ := h.sale_shift s hs
  rw [mem_shiftsOfDay]
  constructor
  · rintro ⟨sh', hsh', hday', hid'⟩
    obtain rfl := inj_on_of_nodup_map h.shift_ids hsh' hsh (hid'.trans hid.symm)
    exact ⟨hstn ▸ (h.shift_day sh' hsh' od hod hday'.symm).symm, hday ▸ hday'⟩
  · rintro ⟨-, hsday⟩
    exact ⟨sh, hsh, hday.trans hsday, hid⟩

theorem Consistent.payment_station {p : Payment} (hp : p ∈ db.payments) {id : Uuid}
    (hid : p.shiftId = some id) (hday : id ∈ db.shiftsOfDay od.id) :
    p.stationId = od.stationId := by
  obtain ⟨sh, hsh, hshid, hstn⟩ := h.payment_shift p hp id hid
  obtain ⟨sh', hsh', hday', hid'⟩ := mem_shiftsOfDay.mp hday
  obtain rfl := inj_on_of_nodup_map h.shift_ids hsh' hsh (hid'.trans hshid.symm)
  exact hstn ▸ (h.shift_day sh' hsh' od hod hday'.symm).symm

/-- The recognized amounts of the shifts are the gross of the day's sales, voided or not. -/
theorem shiftTotals_recognized :
    (db.shiftTotals od.id).recognized
      = ((db.salesOfDay od.stationId od.id).map (·.grossAmount)).sum := by
  calc (db.shiftTotals od.id).recognized
      = ((db.sales.filter fun s ↦ s.shiftId ∈ db.shiftsOfDay od.id).map (·.grossAmount)).sum :=
        sum_by_key (h.nodup_shiftsOfDay od.id) Sale.shiftId db.sales (·.grossAmount)
    _ = ((db.salesOfDay od.stationId od.id).map (·.grossAmount)).sum := by
        rw [RevenueDb.salesOfDay]
        congr 2
        refine filter_congr fun s hs ↦ ?_
        rw [decide_eq_decide]
        exact h.sale_mem_shiftsOfDay hod hs

private theorem shiftTotals_tendered :
    (db.shiftTotals od.id).tendered = (db.dayTenders od.stationId od.id).total := by
  -- shifts as the optional shift of a payment
  let keys : List (Option Uuid) := (db.shiftsOfDay od.id).map some
  have hks : keys.Nodup := (h.nodup_shiftsOfDay od.id).map (Option.some_injective _)
  let recorded := db.payments.filter (·.status = .recorded)
  calc (db.shiftTotals od.id).tendered
      = (keys.map fun k ↦ ((recorded.filter fun p ↦ p.shiftId = k).map (·.amount)).sum).sum := by
        rw [map_map]
        refine congrArg List.sum (map_congr_left fun sh _ ↦ ?_)
        rw [comp_apply, filter_filter]
        simp only [RevenueDb.reconcileShift, Bool.decide_and]
    _ = (db.dayTenders od.stationId od.id).total := by
        rw [sum_by_key hks Payment.shiftId recorded (·.amount), filter_filter]
        change _ = ((db.dayPayments od.stationId od.id).map (·.amount)).sum
        rw [RevenueDb.dayPayments]
        congr 2
        refine filter_congr fun p hp ↦ ?_
        rw [← Bool.decide_and, decide_eq_decide]
        constructor
        · rintro ⟨hkey, hst⟩
          obtain ⟨sh, hsh, heq⟩ := mem_map.mp hkey
          exact ⟨h.payment_station hod hp heq.symm hsh, hst, sh, hsh, heq.symm⟩
        · rintro ⟨-, hst, sh, hsh, heq⟩
          exact ⟨heq ▸ mem_map_of_mem hsh, hst⟩

end Od

theorem Consistent.reversal_of_find (hs : s ∈ db.sales) {v : SaleVoid}
    (hv : (db.voids.filter (·.status = .approved)).find? (·.saleId = s.id) = some v) :
    v.reversal = some s.reversal := by
  obtain ⟨hmem, hsl⟩ := key_of_find? hv
  obtain ⟨hmem, hst⟩ := mem_filter.mp hmem
  obtain ⟨r, hr⟩ := isSome_iff_exists.mp
    (v.reversal_iff.mpr (of_decide_eq_true hst))
  obtain ⟨s', hs', hid, rfl⟩ := h.void_reversal v hmem r hr
  rw [hr, inj_on_of_nodup_map h.sale_ids hs' hs (hid.trans hsl)]

theorem Consistent.daySales_eq (station day : Uuid) :
    db.daySales station day = (db.salesOfDay station day).map fun s ↦
      (s, (db.voids.filter (·.status = .approved)).find? (·.saleId = s.id)) := by
  have hnd : ((db.voids.filter (·.status = .approved)).map (·.saleId)).Nodup := ?_
  · exact leftJoin_eq_map _ _ _ hnd fun s ↦ ⟨s.id, fun v hv ↦ hv⟩
  refine List.Nodup.map_on (fun v hv w hw hsl ↦ ?_) (h.void_ids.of_map.filter _)
  obtain ⟨hv, hvst⟩ := mem_filter.mp hv
  obtain ⟨hw, hwst⟩ := mem_filter.mp hw
  refine h.active_void v hv w hw ?_ ?_ hsl
  · rw [of_decide_eq_true hvst]
    decide
  · rw [of_decide_eq_true hwst]
    decide

/-- The gross of the day: that of its sales less that of the voided ones. -/
theorem dayRevenue_gross (station day : Uuid) :
    (db.dayRevenue station day).gross
      = ((db.salesOfDay station day).map (·.grossAmount)).sum
        + -(((db.salesOfDay station day).filter (db.Voided ·)).map (·.grossAmount)).sum := by
  change netOfVoids (db.daySales station day) (some ·.grossAmount) (some ·.gross) = _
  rw [netOfVoids, h.daySales_eq, sumOf_eq_sum_map, sumOf_eq_sum_map, map_map, map_map,
    ← sum_map_neg, sum_map_filter db.Voided]
  refine congrArg (_ + ·) (congrArg List.sum (map_congr_left fun s hs ↦ ?_))
  have hmem : s ∈ db.sales := (mem_filter.mp hs).1
  rcases hfi : (db.voids.filter (·.status = .approved)).find? (·.saleId = s.id) with _ | v
  · have hnot : ¬db.Voided s := by
      rintro ⟨v, hv, hst, hsl⟩
      exact find?_key_eq_none.mp hfi v (mem_filter.mpr ⟨hv, by simpa using hst⟩) hsl
    rw [if_neg hnot, comp_apply, hfi]
    rfl
  · obtain ⟨hv, hsl⟩ := key_of_find? hfi
    obtain ⟨hv, hst⟩ := mem_filter.mp hv
    rw [if_pos ⟨v, hv, of_decide_eq_true hst, hsl⟩, comp_apply, hfi]
    simp only [bind_some, h.reversal_of_find hmem hfi, getD_some, Sale.reversal]

end Consistent

end Sides

/-! ## The comparison

The shifts add up to the day exactly when the voided sales of the day amount to nothing. -/

theorem computed_of_alone {env : Env} {db : RevenueDb} {n : ℕ} {station day : Uuid} {d : RevenueDay}
    {s' : RevenueDb × ℕ}
    (h : (handleComputeRevenueDay env station day).alone db [] n = (.ok (.day d), s')) :
    Computed db n s'.2 station day d := by
  let R : Except HttpError RevenueResult × RevenueDb × ℕ → Prop := fun out ↦
    out = (.ok (.day d), s') → Computed db n s'.2 station day d
  have hR : R ((handleComputeRevenueDay env station day).alone db [] n) := by
    refine alone_of_yields ?_ (yields_handleComputeRevenueDay ?_)
    · rintro e n' - ⟨⟩
    · rintro d' e n' hd - ⟨⟩
      exact hd
  exact hR h

/-- On a day that has been computed, the reconciliations of the shifts add up to the gross, the
tenders and the variance of the day exactly if its voided sales amount to nothing. -/
theorem shiftTotals_eq_day_iff {env : Env} {db : RevenueDb} (h : Consistent db) {n : ℕ}
    {od : OperatingDay} (hod : od ∈ db.days) {d : RevenueDay} {s' : RevenueDb × ℕ}
    (hcompute : (handleComputeRevenueDay env od.stationId od.id).alone db [] n
      = (.ok (.day d), s')) :
    db.shiftTotals od.id = ⟨d.tenders.total, d.revenue.gross, d.cashVariance⟩ ↔
      db.VoidsAmountToNothing od.stationId od.id := by
  obtain ⟨⟨hrev, hten⟩, hstn, hday, hvar, -, -⟩ := computed_of_alone hcompute
  rw [hstn, hday] at hrev hten
  have hted : (db.shiftTotals od.id).tendered = d.tenders.total := by
    rw [shiftTotals_tendered h hod, hten]
  have hvoi : (db.shiftTotals od.id).recognized = d.revenue.gross ↔
      db.VoidsAmountToNothing od.stationId od.id := by
    rw [shiftTotals_recognized h hod, hrev, dayRevenue_gross h, eq_comm, add_eq_left_iff,
      RevenueDb.VoidsAmountToNothing, neg_eq_zero]
    refine or_congr_left ?_
    rw [← not_iff_not, ← ne_eq, sum_map_ne_top]
    push Not
    rfl
  rw [← hvoi]
  constructor
  · intro heq
    rw [heq]
  · intro hrec
    have hsub : (db.shiftTotals od.id).variance = d.cashVariance := by
      rw [hvar, ← hted, ← hrec]
      exact sum_map_sub _ _ _
    rw [← hted, ← hrec, ← hsub]

def computedDay (s : RevenueDb × ℕ) : Except HttpError RevenueResult × RevenueDb × ℕ :=
  (handleComputeRevenueDay .plain 1 3).alone s.1 [] s.2

/-- What the computed day says of the tenders, the gross and the variance. -/
def computedTotals (s : RevenueDb × ℕ) : Option ShiftReconciliation :=
  match (computedDay s).1 with
  | .ok (.day d) => some ⟨d.tenders.total, d.revenue.gross, d.cashVariance⟩
  | _ => none

private theorem exists_of_computedTotals {s : RevenueDb × ℕ} {totals : ShiftReconciliation}
    (h : computedTotals s = some totals) : ∃ d s', computedDay s = (.ok (.day d), s') ∧
      totals = ⟨d.tenders.total, d.revenue.gross, d.cashVariance⟩ := by
  unfold computedTotals at h
  split at h
  next d hd => exact ⟨d, (computedDay s).2, Prod.ext hd rfl, (some.inj h).symm⟩
  · cases h

/-- The sale is paid and not voided. -/
theorem shiftTotals_eq_day_iff_paid :
    ∃ s, Runs (S := schema .plain) (RevenueOp.prog .plain) (fun _ _ ↦ True) (oneSale, 1) s ∧
      ∃ d s', computedDay s = (.ok (.day d), s') ∧
        s.1.shiftTotals 3 = ⟨d.tenders.total, d.revenue.gross, d.cashVariance⟩ := by
  refine exists_and_imp (fun s ↦ (computedTotals s).isSome ∧ s.1.voids = [] ∧ ⟨3, 1, 10⟩ ∈ s.1.days)
    (exists_of_runAll [.recordPayment (pay 90)] (by decide +kernel)) ?_
  rintro s hrun ⟨hcom, hvoi, hday⟩
  obtain ⟨totals, htot⟩ := isSome_iff_exists.mp hcom
  obtain ⟨d, s', hd, -⟩ := exists_of_computedTotals htot
  refine ⟨d, s', hd, ?_⟩
  refine (shiftTotals_eq_day_iff (consistent_oneSale.of_runs hrun) hday hd).mpr (.inr ?_)
  rw [filter_eq_nil_iff.mpr]
  · rfl
  · intro sale _ hvod
    obtain ⟨v, hv, -⟩ := of_decide_eq_true hvod
    rw [hvoi] at hv
    cases hv

/-- The sale is paid and then voided: the shift still has 100.00 to account for, the day nothing. -/
theorem shiftTotals_ne_day_of_void :
    ∃ s, Runs (S := schema .plain) (RevenueOp.prog .plain) (fun _ _ ↦ True) (oneSale, 1) s ∧
      Consistent s.1 ∧ s.1.shiftTotals 3 = ⟨(10000 : ℤ), (10000 : ℤ), (0 : ℤ)⟩ ∧
      ∃ d s', computedDay s = (.ok (.day d), s') ∧ d.revenue.gross = (0 : ℤ) ∧
        s.1.shiftTotals 3 ≠ ⟨d.tenders.total, d.revenue.gross, d.cashVariance⟩ := by
  refine exists_and_imp (fun s ↦ s.1.shiftTotals 3 = ⟨(10000 : ℤ), (10000 : ℤ), (0 : ℤ)⟩ ∧
      computedTotals s = some ⟨(10000 : ℤ), (0 : ℤ), (10000 : ℤ)⟩)
    (exists_of_runAll [.recordPayment (pay 100), .requestVoid 8 5 "wrong pump",
    .decideVoid .approve 9 6 none] (by decide +kernel)) ?_
  rintro s hrun ⟨hshs, htot⟩
  obtain ⟨d, s', hd, heq⟩ := exists_of_computedTotals htot
  have hgro : d.revenue.gross = (0 : ℤ) := (congrArg ShiftReconciliation.recognized heq).symm
  refine ⟨consistent_oneSale.of_runs hrun, hshs, d, s', hd, hgro, ?_⟩
  rw [hshs, ← heq]
  decide

end FuelGrid.Revenue
