import FuelGrid.Forecourt.Effects

/-!
# Close lines with non-negative litres

A close line should never show a closing below its opening. Three guards work towards that: the
close refuses nozzles whose raw closing lies below the raw opening, the correction of a verified
closing refuses a figure below the active opening, and it looks at the sign of the litres again when
it rewrites a frozen line.
-/

namespace FuelGrid.Forecourt

open Sql

/-- A request, or what the other modules do in between. -/
inductive Op where
  | capture (actor shift nozzle : Uuid) (type : ReadingType) (reading : ℚ)
  | correct (actor shift readingId : Uuid) (reading : ℚ)
  | verifyCorrect (actor shift readingId : Uuid) (verified : ℚ) (reason : String)
  | approve (actor shift readingId : Uuid)
  | reject (actor shift readingId : Uuid) (reason : String)
  | flag (actor shift readingId : Uuid) (reason : String)
  | verifyShift (actor shift : Uuid)
  | close (actor shift : Uuid) (now : ℤ)
  | elsewhere (e : Elsewhere)

def Op.prog (env : Env) : Op → Txn env
  | .capture actor shift nozzle type reading =>
    handleCaptureMeterReading env actor shift nozzle type reading
  | .correct actor shift readingId reading =>
    handleCorrectMeterReading env actor shift readingId reading
  | .verifyCorrect actor shift readingId verified reason =>
    handleVerifyCorrectReading env actor shift readingId verified reason
  | .approve actor shift readingId => handleApproveReading env actor shift readingId
  | .reject actor shift readingId reason => handleRejectReading env actor shift readingId reason
  | .flag actor shift readingId reason => handleFlagReading env actor shift readingId reason
  | .verifyShift actor shift => handleVerifyShiftReadings env actor shift
  | .close actor shift now => handleCloseShift env actor shift now
  | .elsewhere e => .query (.elsewhere e) fun _ ↦ .commit .done

/-- The requests that write nothing but verdicts. -/
def Op.OnlyVerdicts : Op → Prop
  | .approve .. | .reject .. | .flag .. | .verifyShift .. => True
  | _ => False

variable {env : Env} {shift nozzle : Uuid} {l : CloseLine} {opening closing price : ℤ}
  {m : MeterReading} {verified : ℚ}

theorem yields_onlyVerdicts {db : ShiftDb} {n : ℕ} {Q : ShiftResult → ShiftDb → ℕ → Prop}
    {op : Op} (hop : op.OnlyVerdicts)
    (hok : ∀ r db' n', OnlyVerdicts db db' → Q r db' n') :
    (op.prog env).Yields db Q db n := by
  have hload : ∀ {actor shift readingId verb status reason},
      (loadClosingForVerdict env actor shift readingId verb fun _ m ↦
        recordReadingVerdict env actor m status reason).Yields db Q db n :=
    yields_loadClosingForVerdict fun s m n1 _ _ _ _ ↦
      yields_upsertVerificationClearingHold fun _ db' n' h ↦ hok _ db' n' h
  cases op with
  | approve actor shift readingId => exact hload
  | reject actor shift readingId reason =>
    simp only [Op.prog, handleRejectReading]
    split
    · trivial
    · exact hload
  | flag actor shift readingId reason =>
    simp only [Op.prog, handleFlagReading]
    split
    · trivial
    · exact hload
  | verifyShift actor shift =>
    refine yields_shiftForWrite fun s n1 hn1 _ _ _ ↦
      yields_read rfl fun (pending : List MeterReading) ↦ ?_
    split
    · trivial
    · exact yields_verifyPending ⟨rfl, rfl, rfl⟩ hok
  | capture | correct | verifyCorrect | close | elsewhere => exact hop.elim

/-! ## The gap

The guards leave a gap. The line of a verified closing is built from the final figure of the
verification, which the first guard does not look at, and an opening may still be corrected upwards
after the verification. `FinalsAboveOpenings` is what the close would have to check. -/

/-- The closing is not below the opening, and neither the litres nor, at a price that is not
negative, the expected value is negative. -/
def CloseLine.Fine (l : CloseLine) : Prop :=
  l.openingReading ≤ l.closingReading ∧ 0 ≤ l.litresSold ∧ (0 ≤ l.unitPrice → 0 ≤ l.expectedValue)
  deriving Decidable

/-- No active closing of the shift has a final figure below the active opening of its nozzle. -/
def FinalsAboveOpenings (db : ShiftDb) (shift : Uuid) : Prop :=
  ∀ v ∈ db.verifications, ∀ c ∈ db.readings, c.id = v.readingId →
    c.ActiveFor shift c.nozzleId .closing →
    ∀ o ∈ db.readings, o.ActiveFor shift c.nozzleId .opening → o.reading ≤ v.finalApprovedReading
  deriving Decidable

/-- The condition on a request: a shift is closed only above its openings. -/
def Op.ClosesAbove (db : ShiftDb) : Op → Prop
  | .close _ shift _ => FinalsAboveOpenings db shift
  | _ => True

instance (db : ShiftDb) (op : Op) : Decidable (op.ClosesAbove db) :=
  match op with
  | .close _ shift _ => inferInstanceAs (Decidable (FinalsAboveOpenings db shift))
  | .capture .. | .correct .. | .verifyCorrect .. | .approve .. | .reject .. | .flag ..
  | .verifyShift .. | .elsewhere _ => .isTrue trivial

section CloseLineInput

variable (h : CloseLineInput.row ⟨shift, nozzle, (opening : ℚ) / 10 ^ 3, (closing : ℚ) / 10 ^ 3,
  (price : ℚ) / 10 ^ 2⟩ = some l)

include h

theorem CloseLineInput.row_eq_some :
    l.shiftId = shift ∧ l.nozzleId = nozzle ∧ l.openingReading = opening ∧
      l.closingReading = closing ∧ l.litresSold = closing - opening ∧ l.unitPrice = price ∧
      store 14 2 (((closing : ℚ) / 10 ^ 3 - (opening : ℚ) / 10 ^ 3) * ((price : ℚ) / 10 ^ 2))
        = some l.expectedValue := by
  simp only [CloseLineInput.row, bind_eq_bind, bind_eq_some_iff, pure_def,
    some.injEq] at h
  obtain ⟨o, ho, c, hc, litres, hlit, p, hp, value, hval, rfl⟩ := h
  have hdiff : ((closing : ℚ) / 10 ^ 3 - (opening : ℚ) / 10 ^ 3) * 10 ^ 3
      = ((closing - opening : ℤ) : ℚ) := by
    push_cast
    ring
  exact ⟨rfl, rfl, store_units (by ring) ho, store_units (by ring) hc, store_units hdiff hlit,
    store_units (by ring) hp, hval⟩

private theorem fine_of_row (hle : opening ≤ closing) : l.Fine := by
  obtain ⟨-, -, ho, hc, hlit, hp, hval⟩ := CloseLineInput.row_eq_some h
  refine ⟨ho ▸ hc ▸ hle, ?_, fun hpri ↦ store_nonneg ?_ hval⟩
  · rw [hlit]
    exact sub_nonneg.mpr hle
  · rw [hp] at hpri
    have hle' : (opening : ℚ) ≤ closing := by exact_mod_cast hle
    have hpri' : (0 : ℚ) ≤ price := by exact_mod_cast hpri
    have hlit' : (0 : ℚ) ≤ (closing : ℚ) / 10 ^ 3 - (opening : ℚ) / 10 ^ 3 := by
      rw [sub_nonneg]
      gcongr
    positivity

end CloseLineInput

private theorem fine_of_recompute {l' : CloseLine} (h : l.recompute verified = some l')
    (hle : (l.openingReading : ℚ) / 10 ^ 3 ≤ verified) :
    l'.Fine ∧ l'.openingReading = l.openingReading ∧ l'.shiftId = l.shiftId ∧
      l'.nozzleId = l.nozzleId := by
  simp only [CloseLine.recompute, bind_eq_bind, bind_eq_some_iff, pure_def,
    some.injEq] at h
  obtain ⟨closing, hcls, litres, hlit, value, hval, rfl⟩ := h
  have hdiff : 0 ≤ verified - (l.openingReading : ℚ) / 10 ^ 3 := sub_nonneg.mpr hle
  refine ⟨⟨le_store hle hcls, store_nonneg hdiff hlit, fun hpri ↦ store_nonneg ?_ hval⟩,
    rfl, rfl, rfl⟩
  have hpri' : (0 : ℚ) ≤ l.unitPrice := by exact_mod_cast hpri
  positivity

/-! ## The invariant

The invariant says that the opening frozen in a line is still the active opening of its nozzle:
readings of a shift do not change once it is closed. So the comparison with the active opening also
protects the frozen one, down to the fourth decimal, which the sign of the rounded litres does not
show. -/

/-- The line is fine, its shift is not open, and its opening is still the active one. -/
structure Frozen (db : ShiftDb) (n : ℕ) (l : CloseLine) : Prop where
  fine : l.Fine
  drawn : l.shiftId < n
  shut : ∀ s ∈ db.shifts, s.id = l.shiftId → s.status ≠ .opened
  opening : ∃ o ∈ db.readings, o.ActiveFor l.shiftId l.nozzleId .opening ∧
    o.reading = l.openingReading

/-- The invariant of every run: ids are drawn, active readings are unique, lines are frozen. -/
structure Inv (db : ShiftDb) (n : ℕ) : Prop where
  shifts : ∀ s ∈ db.shifts, s.id < n
  ids : (db.readings.map (·.id)).Nodup
  drawn : ∀ m ∈ db.readings, m.id < n
  unique : ∀ m ∈ db.readings, ∀ m' ∈ db.readings, ∀ {shift nozzle type},
    m.ActiveFor shift nozzle type → m'.ActiveFor shift nozzle type → m = m'
  lines : ∀ l ∈ db.lines, Frozen db n l

section Inv

variable {db db' : ShiftDb} {n n' : ℕ} {input : CaptureInput} {s : Shift}

theorem Inv.mono (h : Inv db n) (hn : n ≤ n') : Inv db n' where
  shifts s hs := (h.shifts s hs).trans_le hn
  ids := h.ids
  drawn m hm := (h.drawn m hm).trans_le hn
  unique := h.unique
  lines l hl := { h.lines l hl with drawn := (h.lines l hl).drawn.trans_le hn }

/-- Verifications and fixtures do not matter to the invariant. -/
theorem Inv.congr (h : Inv db n) (hshs : db'.shifts = db.shifts)
    (hrds : db'.readings = db.readings) (hlns : db'.lines = db.lines) : Inv db' n where
  shifts := by rw [hshs]; exact h.shifts
  ids := by rw [hrds]; exact h.ids
  drawn := by rw [hrds]; exact h.drawn
  unique := by rw [hrds]; exact h.unique
  lines l hl := by
    rw [hlns] at hl
    obtain ⟨hfine, hdr, hsh, hop⟩ := h.lines l hl
    exact ⟨hfine, hdr, by rwa [hshs], by rwa [hrds]⟩

theorem capture_eq_ok (h : capture db n input = .ok m) :
    m.id = n ∧ m.ActiveFor input.shiftId input.nozzleId input.readingType ∧
      ∀ m' ∈ db.readings, ¬m'.ActiveFor input.shiftId input.nozzleId input.readingType := by
  unfold capture at h
  split at h
  · cases h
  split at h
  · split at h
    · cases h
    next hfr =>
      cases h
      exact ⟨rfl, ⟨rfl, rfl, rfl, rfl⟩, fun m' hm' hact ↦ hfr ⟨m', hm', hact⟩⟩
  · cases h

theorem Inv.capture (h : Inv db n) (hm : capture db n input = .ok m) :
    Inv (db.apply (.insertReading m)) (n + 1) := by
  obtain ⟨rfl, hact, hfr⟩ := capture_eq_ok hm
  have hmem : ∀ {m'}, m' ∈ (db.apply (.insertReading m)).readings → m' ∈ db.readings ∨ m' = m :=
    fun hm' ↦ (mem_append.mp hm').imp_right mem_singleton.mp
  refine ⟨fun s hs ↦ (h.shifts s hs).trans (lt_succ_self _), ?_, fun m' hm' ↦ ?_,
    fun m1 hm1 m2 hm2 shift nozzle type h1 h2 ↦ ?_, fun l hl ↦ ?_⟩
  · change ((db.readings ++ [m]).map _).Nodup
    rw [map_append]
    refine h.ids.append (nodup_singleton _) fun i hi hi' ↦ ?_
    obtain ⟨m', hm', rfl⟩ := mem_map.mp hi
    exact (h.drawn m' hm').ne (mem_singleton.mp hi')
  · rcases hmem hm' with hm' | rfl
    · exact (h.drawn m' hm').trans (lt_succ_self _)
    · exact lt_succ_self _
  · -- an old reading and the new one are not both active for one key
    have hnew : ∀ {m'}, m' ∈ db.readings → m'.ActiveFor shift nozzle type →
        ¬m.ActiveFor shift nozzle type := by
      rintro m' hm' h' ⟨rfl, rfl, rfl, -⟩
      rw [hact.1, hact.2.1, hact.2.2.1] at h'
      exact hfr m' hm' h'
    rcases hmem hm1 with hold1 | heq1 <;> rcases hmem hm2 with hold2 | heq2
    · exact h.unique m1 hold1 m2 hold2 h1 h2
    · exact absurd (heq2 ▸ h2) (hnew hold1 h1)
    · exact absurd (heq1 ▸ h1) (hnew hold2 h2)
    · exact heq1.trans heq2.symm
  · obtain ⟨hfine, hdr, hsh, o, ho, hop⟩ := h.lines l hl
    exact ⟨hfine, hdr.trans (lt_succ_self _), hsh, o, mem_append_left _ ho, hop⟩

theorem Inv.supersede (h : Inv db n) {old : MeterReading} (hs : s ∈ db.shifts)
    (hop : s.status = .opened) (hold : old ∈ db.readings) (hsh : old.shiftId = s.id) :
    Inv (db.apply (.supersede old.id)) n := by
  have hmem : ∀ {m'}, m' ∈ (db.apply (.supersede old.id)).readings → m'.status = .active →
      m' ∈ db.readings := by
    intro m' hm' hact
    obtain ⟨m, hm, rfl⟩ := mem_map.mp hm'
    split at hact
    · cases hact
    next hid => rwa [if_neg hid]
  refine ⟨h.shifts, ?_, fun m' hm' ↦ ?_, fun m1 hm1 m2 hm2 shift nozzle type h1 h2 ↦ ?_,
    fun l hl ↦ ?_⟩
  · have hids : (db.apply (.supersede old.id)).readings.map (·.id) = db.readings.map (·.id) := by
      refine map_map.trans (map_congr_left fun m _ ↦ ?_)
      rw [comp_apply]
      split <;> rfl
    rw [hids]
    exact h.ids
  · obtain ⟨m, hm, rfl⟩ := mem_map.mp hm'
    split <;> exact h.drawn m hm
  · exact h.unique m1 (hmem hm1 h1.2.2.2) m2 (hmem hm2 h2.2.2.2) h1 h2
  · obtain ⟨hfine, hdr, hshut, o, ho, hact, hrd⟩ := h.lines l hl
    have hne : o.id ≠ old.id := by
      intro hid
      have heq : o = old := inj_on_of_nodup_map h.ids ho hold hid
      rw [heq] at hact
      exact hshut s hs (hsh.symm.trans hact.1) hop
    refine ⟨hfine, hdr, hshut, o, mem_map.mpr ⟨o, ho, if_neg hne⟩, hact, hrd⟩

/-- The line that a correction recomputes stays frozen: its opening is the active one, which the
corrected figure was compared with. -/
theorem Inv.setLine (h : Inv db n) {l' : CloseLine} (habo : AboveOpening db shift nozzle verified)
    (hfi : findLine db shift nozzle = some l) (hrec : l.recompute verified = some l') :
    Inv (db.apply (.setLine l')) n := by
  have hkey : l.shiftId = shift ∧ l.nozzleId = nozzle := by simpa using find?_some hfi
  have hl := h.lines l (mem_of_find?_eq_some hfi)
  obtain ⟨o, ho, hact, hrd⟩ := hl.opening
  rw [hkey.1, hkey.2] at hact
  have hfd : activeReading db shift nozzle .opening = some o := by
    rcases hfi' : activeReading db shift nozzle .opening with _ | o'
    · have hno := List.find?_eq_none.mp hfi' o ho
      exact absurd hact (by simpa using hno)
    · have hact' : o'.ActiveFor shift nozzle .opening := by simpa using find?_some hfi'
      rw [h.unique o' (mem_of_find?_eq_some hfi') o ho hact' hact]
  have hle : (l.openingReading : ℚ) / 10 ^ 3 ≤ verified := by
    rw [← hrd]
    exact habo o hfd
  obtain ⟨hfine, hop, hsh, hnoz⟩ := fine_of_recompute hrec hle
  refine ⟨h.shifts, h.ids, h.drawn, h.unique, fun l1 hl1 ↦ ?_⟩
  obtain ⟨l0, hl0, rfl⟩ := mem_map.mp hl1
  split
  · refine ⟨hfine, hsh ▸ hl.drawn, hsh ▸ hl.shut, ?_⟩
    rw [hop, hsh, hnoz]
    exact hl.opening
  · obtain ⟨hfin0, hdr0, hsh0, hop0⟩ := h.lines l0 hl0
    exact ⟨hfin0, hdr0, hsh0, hop0⟩

/-- What the reads of a close justify: the closing of a nozzle is not below its opening, if that
holds of the final figures. -/
theorem opening_le_closing (hfin : FinalsAboveOpenings db shift)
    (hop : (closeReads db shift).opening nozzle = some opening)
    (hcls : (closeReads db shift).closing nozzle = some closing)
    (hroll : nozzle ∉ (closeReads db shift).rolledBack) : opening ≤ closing ∧
      ∃ o ∈ db.readings, o.ActiveFor shift nozzle .opening ∧ o.reading = opening := by
  obtain ⟨o, ho, rfl⟩ := map_eq_some_iff.mp hop
  obtain ⟨c, hc, rfl⟩ := map_eq_some_iff.mp hcls
  have hrow : ∀ {m type}, m ∈ (closeReads db shift).meterRows.filter
      (fun m ↦ m.nozzleId = nozzle ∧ m.readingType = type) →
      m ∈ db.readings ∧ m.ActiveFor shift nozzle type := by
    intro m type hm
    obtain ⟨hm, hty⟩ := mem_filter.mp hm
    obtain ⟨hmem, hact⟩ := mem_filter.mp hm
    simp only [decide_eq_true_eq] at hty hact
    exact ⟨hmem, hact.1, hty.1, hty.2, hact.2⟩
  obtain ⟨ho, hoac⟩ := hrow (List.mem_of_getLast? ho)
  obtain ⟨hc, hcac⟩ := hrow (List.mem_of_getLast? hc)
  refine ⟨?_, o, ho, hoac, rfl⟩
  unfold CloseReads.finalOf
  rcases hlast : ((closeReads db shift).finalClosing.filter (·.1 = c.id)).getLast? with _ | final
  · -- no verification: the raw readings have been compared
    rw [hlast]
    by_contra hlt
    refine hroll (mem_flatMap.mpr ⟨o, ?_, ?_⟩)
    · exact mem_filter.mpr
        ⟨ho, decide_eq_true ⟨hoac.1, hoac.2.2.1, hoac.2.2.2⟩⟩
    · refine mem_map.mpr ⟨c, mem_filter.mpr ⟨hc, decide_eq_true ⟨?_, ?_⟩⟩, hoac.2.1⟩
      · rw [hoac.2.1]
        exact hcac
      · exact not_le.mp hlt
  · obtain ⟨hfia, hid⟩ := mem_filter.mp (List.mem_of_getLast? hlast)
    obtain ⟨v, hv, rfl⟩ := mem_map.mp hfia
    have hid : v.readingId = c.id := by simpa using hid
    rw [hlast]
    refine hfin v (mem_of_mem_filter hv) c hc hid.symm ?_ o ho ?_
    · rw [hcac.2.1]
      exact hcac
    · rw [hcac.2.1]
      exact hoac

theorem mem_setShift {x : Shift} (h : x ∈ (db.apply (.setShift s)).shifts) :
    x = s ∨ (x ∈ db.shifts ∧ x.id ≠ s.id) := by
  obtain ⟨x0, hx0, rfl⟩ := mem_map.mp h
  split
  · exact .inl rfl
  next hne => exact .inr ⟨hx0, hne⟩

theorem Inv.setShift (h : Inv db n) (hdr : s.id < n) (hst : s.status ≠ .opened) :
    Inv (db.apply (.setShift s)) n := by
  refine ⟨fun x hx ↦ ?_, h.ids, h.drawn, h.unique, fun l hl ↦ ?_⟩
  · rcases mem_setShift hx with rfl | ⟨hx, -⟩
    · exact hdr
    · exact h.shifts x hx
  · obtain ⟨hfine, hdr, hsh, hop⟩ := h.lines l hl
    refine ⟨hfine, hdr, fun x hx hid ↦ ?_, hop⟩
    rcases mem_setShift hx with rfl | ⟨hx, -⟩
    · exact hst
    · exact hsh x hx hid

theorem Inv.close (h : Inv db n) {lines : List CloseLine} {actor : Uuid} {now : ℤ}
    (hfin : FinalsAboveOpenings db s.id) (hs : s ∈ db.shifts)
    (hlns : ∀ l ∈ lines, ∃ i, (closeReads db s.id).Justifies s.id i ∧ i.row = some l) :
    Inv (replay (S := schema env) db (closeLog lines (s.close actor now))) n := by
  have hdr := h.shifts s hs
  obtain ⟨hshs, hids, hrds, hun, hold⟩ :=
    h.setShift (s := s.close actor now) hdr nofun
  rw [replay_closeLog]
  refine ⟨hshs, hids, hrds, hun, fun l hl ↦ ?_⟩
  rcases mem_append.mp hl with hl | hl
  · obtain ⟨hfine, hdr, hshut, hop⟩ := hold l hl
    exact ⟨hfine, hdr, hshut, hop⟩
  · obtain ⟨i, ⟨nozzle, opening, closing, price, ho, hc, hroll, rfl⟩, hrow⟩ := hlns l hl
    obtain ⟨hle, o, ho, hact, hrd⟩ := opening_le_closing hfin ho hc hroll
    obtain ⟨hsh, hnoz, hop, -⟩ := CloseLineInput.row_eq_some hrow
    refine ⟨fine_of_row hrow hle, hsh ▸ hdr, fun x hx hid ↦ ?_, o, ho, ?_, ?_⟩
    · rcases mem_setShift hx with rfl | ⟨-, hne⟩
      · exact nofun
      · exact absurd (hid.trans hsh) hne
    · rwa [hsh, hnoz]
    · rw [hop, hrd]

/-- What the other modules do: new shifts have new ids, and an approved shift was closed. -/
theorem Inv.elsewhere (h : Inv db n) (e : Elsewhere) :
    Inv (replay (S := schema env) db (e.writes db n)) (n + 1) := by
  cases e with
  | fixtures f =>
    have hsm : Inv (db.apply (.setFixtures f)) n := h.congr rfl rfl rfl
    exact hsm.mono (le_succ n)
  | openShift stationId openedAt =>
    refine ⟨fun s hs ↦ ?_, h.ids, (h.mono (le_succ n)).drawn, h.unique, fun l hl ↦ ?_⟩
    · rcases mem_snoc.mp hs with hs | rfl
      · exact (h.shifts s hs).trans (lt_succ_self n)
      · exact lt_succ_self n
    · obtain ⟨hfine, hdr, hsh, hop⟩ := h.lines l hl
      refine ⟨hfine, hdr.trans (lt_succ_self n), fun s hs hid ↦ ?_, hop⟩
      rcases mem_snoc.mp hs with hs | rfl
      · exact hsh s hs hid
      · exact absurd hid hdr.ne'
  | approveShift id =>
    rw [Elsewhere.writes]
    rcases hfi : db.shifts.find? fun s ↦ s.id = id ∧ s.status = .closed with _ | s
    · rw [hfi]
      exact h.mono (le_succ n)
    · rw [hfi]
      have hs : Inv (db.apply (.setShift { s with status := .approved })) n :=
        h.setShift (h.shifts s (mem_of_find?_eq_some hfi)) nofun
      exact hs.mono (le_succ n)

end Inv

/-! ## Every run

Under the condition every line is fine in every state reached
(`closeLinesFine_of_finalsAboveOpenings`). -/

theorem inv_alone {db : ShiftDb} {n : ℕ} (h : Inv db n) (op : Op) (hop : op.ClosesAbove db) :
    Inv ((op.prog env).alone db [] n).2.1 ((op.prog env).alone db [] n).2.2 := by
  have hvd : ∀ (r : ShiftResult) db' n', OnlyVerdicts db db' → n ≤ n' → Inv db' n' :=
    fun _ db' n' hsm hn ↦ (h.congr hsm.shifts hsm.readings hsm.lines).mono hn
  let R : Except ShiftError ShiftResult × ShiftDb × ℕ → Prop := fun r ↦ Inv r.2.1 r.2.2
  change R ((op.prog env).alone db [] n)
  refine alone_of_yields (fun _ _ hn ↦ h.mono hn) ?_
  cases op with
  | capture actor shift nozzle type reading =>
    exact yields_handleCaptureMeterReading fun s m n' hn _ _ _ hm _ ↦ (h.mono hn).capture hm
  | correct actor shift readingId reading =>
    exact yields_handleCorrectMeterReading fun s old m n' hn hs hopen hold hsh _ hm _ ↦
      ((h.mono hn).supersede (mem_of_find?_eq_some hs) hopen
        (mem_of_find?_eq_some hold) hsh).capture hm
  | verifyCorrect actor shift readingId verified reason =>
    refine yields_handleVerifyCorrectReading hvd
      fun r nozzle l l' db' n' hsm habo hfi hrec _ hn ↦ ?_
    exact ((h.mono hn).setLine habo hfi hrec).congr hsm.shifts hsm.readings
      (congrArg (List.map _) hsm.lines)
  | approve | reject | flag | verifyShift => exact yields_onlyVerdicts trivial hvd
  | close actor shift now =>
    refine yields_handleCloseShift fun r s lines n' hfi _ hlns hn ↦ ?_
    have hid : s.id = shift := by simpa using find?_some hfi
    subst hid
    exact (h.close hop (mem_of_find?_eq_some hfi) hlns).mono hn
  | elsewhere e => exact fun _ ↦ h.elsewhere e

/-- In every order of requests that closes a shift only while no final closing lies below the active
opening, every close line has a closing that is not below its opening, and neither its litres nor,
at a price that is not negative, its expected value is negative. -/
theorem closeLinesFine_of_finalsAboveOpenings (env : Env) {fixtures : Fixtures}
    {shifts : List Shift} {n : ℕ} (hdrawn : ∀ s ∈ shifts, s.id < n) {s : ShiftDb × ℕ}
    (h : Runs (Op.prog env) Op.ClosesAbove (⟨fixtures, shifts, [], [], []⟩, n) s) :
    ∀ l ∈ s.1.lines, l.Fine := by
  have hinit : Inv ⟨fixtures, shifts, [], [], []⟩ n :=
    ⟨hdrawn, nodup_nil, nofun, nofun, nofun⟩
  have hinv := h.invariant (I := fun s ↦ Inv s.1 s.2) hinit fun s op hs hop ↦ inv_alone hs op hop
  exact fun l hl ↦ (hinv.lines l hl).fine

/-- A station whose users may do everything. -/
def smallEnv : Env where
  can _ _ _ := true
  round64 x := x
  rank i := i

/-- One nozzle at a price of 5.00, assigned on the shift 0, whose tank has a closing dip. -/
def smallFixtures : Fixtures where
  nozzles := [⟨1, 0, 0, 500, 2⟩]
  assignments := [⟨0, 1, 7⟩]
  attendants := [(0, 7)]
  dips := [⟨0, 0, .closing, .active⟩]

def smallShift : ShiftDb × ℕ := (⟨smallFixtures, [⟨0, 0, .opened, 0, none, none⟩], [], [], []⟩, 1)

/-- The closing is corrected from 200 to 150 litres after the close. -/
theorem closeLinesFine_of_finalsAboveOpenings_recomputed :
    ∃ s, Runs (Op.prog smallEnv) Op.ClosesAbove smallShift s ∧
      s.1.lines.map (·.litresSold) = [50000] ∧ ∀ l ∈ s.1.lines, l.Fine := by
  refine exists_and_imp (fun s ↦ s.1.lines.map (·.litresSold) = [50000])
    (exists_of_runAll [.capture 7 0 1 .opening 100, .capture 7 0 1 .closing 200,
    .close 8 0 0, .verifyCorrect 8 0 9 150 "meter misread"] (by decide +kernel)) ?_
  rintro _ hs hlit
  exact ⟨hlit, closeLinesFine_of_finalsAboveOpenings smallEnv (by decide) hs⟩

/-- The closing is verified as 150 litres, then the opening is corrected to 180 and the shift is
closed: its line shows the opening 180 and the closing 150. -/
theorem not_closeLinesFine_of_late_opening :
    ∃ s, Runs (Op.prog smallEnv) (fun _ _ ↦ True) smallShift s ∧
      ∃ l ∈ s.1.lines, l.litresSold = -30000 ∧ ¬l.Fine :=
  exists_of_runAll [.capture 7 0 1 .opening 100, .capture 7 0 1 .closing 200,
    .verifyCorrect 8 0 9 150 "meter misread", .correct 7 0 5 180, .close 8 0 0] (by decide +kernel)

end FuelGrid.Forecourt
