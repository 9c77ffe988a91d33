import FuelGrid.Forecourt.Handlers

/-!
# What the handlers do when they run alone

One rule for each handler: to show a property `Q` of what an accepted request yields, it is enough
to show it for the rows that the request writes, with what the handler has checked about them.
-/

namespace FuelGrid.Forecourt

open Sql

variable {env : Env} {db view : ShiftDb} {n : ℕ} {Q : ShiftResult → ShiftDb → ℕ → Prop}
  {next : Txn env} {requireOpen override : Bool} {actor shift nozzle readingId : Uuid}
  {type : ReadingType} {reading verified : ℚ} {l : CloseLine} {reads : CloseReads} {g : Gathered}
  {s : Shift} {now : ℤ}

theorem yields_checkOpen (hok : (requireOpen → s.status = .opened) → next.Yields db Q db n) :
    (checkOpen env requireOpen s next).Yields db Q db n := by
  unfold checkOpen
  split
  · trivial
  next hop => exact hok fun hreq ↦ by simpa [hreq] using hop

theorem yields_shiftForWrite {perm : Permission} {next : Shift → Txn env}
    (hok : ∀ s n', n ≤ n' → s ∈ db.shifts → s.id = shift → (requireOpen → s.status = .opened) →
      (next s).Yields db Q db n') :
    (shiftForWrite env actor shift perm requireOpen next).Yields db Q db n := by
  refine yields_reply rfl fun (found : Option Shift) hfi ↦ ?_
  cases found with
  | none => trivial
  | some s =>
    have hid : s.id = shift := by simpa using find?_some hfi
    dsimp only
    split
    · exact yields_checkOpen fun hop ↦
        hok s _ (le_succ n) (mem_of_find?_eq_some hfi) hid hop
    · trivial

theorem yields_shiftForScopedWrite {basePerm overridePerm : Permission}
    {next : Shift → Bool → Txn env}
    (hok : ∀ s override n', n ≤ n' → db.shifts.find? (·.id = shift) = some s →
      (requireOpen → s.status = .opened) → (next s override).Yields db Q db n') :
    (shiftForScopedWrite env actor shift basePerm overridePerm requireOpen next).Yields
      db Q db n := by
  refine yields_reply rfl fun (found : Option Shift) hfi ↦ ?_
  cases found with
  | none => trivial
  | some s =>
    dsimp only
    split
    · exact yields_checkOpen fun hop ↦ hok s true _ (by omega) hfi hop
    · split
      · refine yields_read rfl fun (onShift : Bool) ↦ ?_
        cases onShift with
        | true =>
          exact yields_checkOpen fun hop ↦ hok s false _ (by omega) hfi hop
        | false => trivial
      · trivial

theorem yields_requireNozzleAssigned (hok : next.Yields db Q db (n + 1)) :
    (requireNozzleAssigned env actor shift nozzle override next).Yields db Q db n := by
  refine yields_read rfl fun (assigned : Bool) ↦ ?_
  cases assigned with
  | true => exact hok
  | false => cases override <;> trivial

/-! ## Capturing and correcting -/

theorem yields_captureRow {input : CaptureInput} {next : Except PgError MeterReading → Txn env}
    (hfl : ∀ e, (next (.error e)).Yields db Q view (n + 1))
    (hok : ∀ m, capture view n input = .ok m →
      (next (.ok m)).Yields db Q (view.apply (.insertReading m)) (n + 1)) :
    (captureRow env input next).Yields db Q view n := by
  rw [captureRow, yields_lock, Prog.yields_query]
  simp only [exec]
  cases hres : capture view n input with
  | error e => exact hfl e
  | ok m => exact hok m hres

/-- A reading of this kind does not lie below the expected opening of the nozzle. -/
def AboveExpected (env : Env) (db : ShiftDb) (s : Shift) (nozzle : Uuid) (type : ReadingType)
    (reading : ℚ) : Prop :=
  type = .opening → ∀ expected ∈ expectedOpening env db s nozzle, (expected : ℚ) / 10 ^ 3 ≤ reading
  deriving Decidable

theorem yields_checkExpectedOpening
    (hok : ∀ n', n ≤ n' → AboveExpected env db s nozzle type reading → next.Yields db Q db n') :
    (checkExpectedOpening env s nozzle type reading next).Yields db Q db n := by
  cases type with
  | closing => exact hok n le_rfl nofun
  | opening =>
    refine yields_reply rfl fun (expected : Option ℤ) hexp ↦ ?_
    have hexp : expectedOpening env db s nozzle = expected := hexp
    cases expected with
    | none =>
      refine hok _ (by omega) fun _ e he ↦ ?_
      rw [hexp] at he
      cases he
    | some expected =>
      dsimp only
      split
      · trivial
      next hle =>
        refine hok _ (by omega) fun _ e he ↦ ?_
        rw [hexp] at he
        cases he
        exact not_lt.mp hle

/-- An accepted capture adds one reading to an open shift, not below the expected opening. -/
theorem yields_handleCaptureMeterReading
    (hok : ∀ s m n', n ≤ n' → db.shifts.find? (·.id = shift) = some s → s.status = .opened →
      AboveExpected env db s nozzle type reading →
      capture db n' ⟨s.id, nozzle, type, reading, actor, none⟩ = .ok m →
      Q (.reading m) (db.apply (.insertReading m)) (n' + 1)) :
    (handleCaptureMeterReading env actor shift nozzle type reading).Yields db Q db n := by
  unfold handleCaptureMeterReading
  split
  · refine yields_shiftForScopedWrite fun s override n1 hn1 hs hop ↦
      yields_read rfl fun (found : Option Nozzle) ↦ ?_
    cases found with
    | none => trivial
    | some z =>
      dsimp only
      split
      · trivial
      · refine yields_requireNozzleAssigned ?_
        split
        · refine yields_checkExpectedOpening fun n' _ habo ↦
            yields_captureRow (fun e ↦ ?_) fun m hm ↦
              hok s m n' (by omega) hs (hop rfl) habo hm
          cases e with
          | uniqueViolation => cases type <;> trivial
          | numericOverflow | checkViolation | foreignKeyViolation => trivial
        · trivial
  · trivial

theorem yields_checkSubmissionLock {old : MeterReading}
    (hok : ∀ n', n ≤ n' → next.Yields db Q db n') :
    (checkSubmissionLock env shift override old next).Yields db Q db n := by
  unfold checkSubmissionLock
  split
  · refine yields_read rfl fun (rejected : Bool) ↦ ?_
    rcases rejected with _ | _
    · trivial
    · exact hok _ (by omega)
  · exact hok n le_rfl

theorem yields_supersedeRow {id : Uuid} {next : Bool → Txn env}
    (hno : ∀ n', n ≤ n' → (next false).Yields db Q db n')
    (hok : ∀ n', n ≤ n' → (next true).Yields db Q (db.apply (.supersede id)) n') :
    (supersedeRow env id next).Yields db Q db n := by
  refine yields_read rfl fun (found : Bool) ↦ ?_
  rcases found with _ | _
  · exact hno _ (by omega)
  · simp only [↓reduceIte, yields_lock, Prog.yields_query, exec]
    split
    · exact hok _ (by omega)
    · exact hno _ (by omega)

/-- An accepted correction supersedes an active reading of an open shift and adds another one of its
kind. -/
theorem yields_handleCorrectMeterReading
    (hok : ∀ s old m n', n ≤ n' → db.shifts.find? (·.id = shift) = some s → s.status = .opened →
      db.readings.find? (·.id = readingId) = some old → old.shiftId = s.id → old.status = .active →
      capture (db.apply (.supersede old.id)) n'
        ⟨s.id, old.nozzleId, old.readingType, reading, actor, some old.id⟩ = .ok m →
      Q (.reading m) ((db.apply (.supersede old.id)).apply (.insertReading m)) (n' + 1)) :
    (handleCorrectMeterReading env actor shift readingId reading).Yields db Q db n := by
  unfold handleCorrectMeterReading
  split
  · refine yields_shiftForScopedWrite fun s override n1 hn1 hs hop ↦
      yields_reply rfl fun (found : Option MeterReading) hfi ↦ ?_
    rcases found with _ | old
    · trivial
    dsimp only
    split
    · trivial
    next hsh =>
    split
    · trivial
    next hact =>
    refine yields_checkSubmissionLock fun n2 _ ↦ yields_requireNozzleAssigned <|
      yields_read rfl fun (nozzle : Option Nozzle) ↦ ?_
    rcases nozzle with _ | z
    · trivial
    dsimp only
    split
    · refine yields_supersedeRow (fun _ _ ↦ trivial) fun n' _ ↦
        yields_captureRow (fun e ↦ ?_) fun m hm ↦ ?_
      · cases e <;> trivial
      exact hok s old m n' (by omega) hs (hop rfl) hfi (not_not.mp hsh)
        (not_not.mp hact) hm
    · trivial
  · trivial

/-! ## Verifying -/

/-- Verdicts leave every other table alone. -/
structure OnlyVerdicts (db db' : ShiftDb) : Prop where
  shifts : db'.shifts = db.shifts
  readings : db'.readings = db.readings
  lines : db'.lines = db.lines

theorem yields_loadClosingForVerdict {verb : String} {next : Shift → MeterReading → Txn env}
    (hok : ∀ s m n', n ≤ n' → s.id = shift → m ∈ db.readings →
      m.ActiveFor s.id m.nozzleId .closing → (next s m).Yields db Q db n') :
    (loadClosingForVerdict env actor shift readingId verb next).Yields db Q db n := by
  refine yields_shiftForWrite fun s n1 hn1 _ hid _ ↦ ?_
  split
  · trivial
  refine yields_reply rfl ?_
  rintro (_ | m) hfi
  · trivial
  dsimp only
  split
  · trivial
  next hsh =>
  split
  · trivial
  next hty =>
  split
  · trivial
  next hact =>
  split
  · trivial
  · exact hok s m _ (by omega) hid (mem_of_find?_eq_some hfi)
      ⟨not_not.mp hsh, rfl, not_not.mp hty, not_not.mp hact⟩

theorem yields_upsertVerificationClearingHold {input : VerificationInput}
    {next : Verification → Txn env}
    (hok : ∀ v view n', OnlyVerdicts db view → (next v).Yields db Q view n') :
    (upsertVerificationClearingHold env input next).Yields db Q db n := by
  rw [upsertVerificationClearingHold, yields_lock]
  refine yields_step fun ws r hout ↦ ?_
  obtain ⟨e, -, rfl, rfl⟩ | ⟨v, -, rfl, rfl⟩ := logged_eq hout
  · cases e with
    | uniqueViolation =>
      refine yields_read rfl fun (found : Bool) ↦ ?_
      rcases found with _ | _
      · trivial
      · refine yields_step fun ws r hout ↦ ?_
        obtain ⟨e, -, rfl, rfl⟩ | ⟨-, rfl, rfl⟩ | ⟨v, -, rfl, rfl⟩ := loggedRow_eq hout
        · trivial
        · trivial
        · exact hok v _ _ ⟨rfl, rfl, rfl⟩
    | numericOverflow | checkViolation | foreignKeyViolation => trivial
  · exact hok v _ _ ⟨rfl, rfl, rfl⟩

theorem yields_verifyPending {pending : List MeterReading} {count : ℕ} (hvw : OnlyVerdicts db view)
    (hok : ∀ r db' n', OnlyVerdicts db db' → Q r db' n') :
    (verifyPending env actor pending count).Yields db Q view n := by
  induction pending generalizing count view n with
  | nil => exact hok _ view n hvw
  | cons m pending ih =>
    rw [verifyPending, yields_lock, Prog.yields_query]
    simp only [exec]
    rcases insertVerification view _ with e | v
    · trivial
    · exact ih ⟨hvw.shifts, hvw.readings, hvw.lines⟩

/-- The active opening of the nozzle, if there is one, does not lie above the figure. -/
def AboveOpening (db : ShiftDb) (shift nozzle : Uuid) (verified : ℚ) : Prop :=
  ∀ o ∈ activeReading db shift nozzle .opening, (o.reading : ℚ) / 10 ^ 3 ≤ verified

theorem yields_checkOpening
    (hok : AboveOpening db shift nozzle verified → next.Yields db Q db (n + 1)) :
    (checkOpening env shift nozzle verified next).Yields db Q db n := by
  refine yields_reply rfl fun (found : Option MeterReading) hfi ↦ ?_
  have hfi : activeReading db shift nozzle .opening = found := hfi
  rcases found with _ | o
  · exact hok fun o ho ↦ by rw [hfi] at ho; cases ho
  dsimp only
  split
  · trivial
  next hle =>
    refine hok fun o' ho' ↦ ?_
    rw [hfi] at ho'
    cases ho'
    exact not_lt.mp hle

theorem key_of_findLine (h : findLine db shift nozzle = some l) :
    l.shiftId = shift ∧ l.nozzleId = nozzle := by
  simpa using find?_some h

theorem CloseLine.key_of_recompute {l' : CloseLine} (h : l.recompute verified = some l') :
    l'.shiftId = l.shiftId ∧ l'.nozzleId = l.nozzleId := by
  simp only [CloseLine.recompute, bind_eq_bind, bind_eq_some_iff, pure_def,
    some.injEq] at h
  obtain ⟨_, -, _, -, _, -, rfl⟩ := h
  exact ⟨rfl, rfl⟩

theorem yields_recomputeRow (hvw : view.lines = db.lines) (hno : ∀ n', next.Yields db Q view n')
    (hok : ∀ l l' n', findLine db shift nozzle = some l → l.recompute verified = some l' →
      0 ≤ l'.litresSold → next.Yields db Q (view.apply (.setLine l')) n') :
    (recomputeRow env shift nozzle verified next).Yields db Q view n := by
  have hln : findLine view shift nozzle = findLine db shift nozzle := by
    rw [findLine, hvw, findLine]
  refine yields_read rfl fun (found : Bool) ↦ ?_
  rcases found with _ | _
  · exact hno _
  simp only [↓reduceIte, yields_lock, Prog.yields_query, exec, recomputeCloseLine, hln]
  rcases hfi : findLine db shift nozzle with _ | l
  · exact hno _
  dsimp only
  rcases hrec : l.recompute verified with _ | l'
  · trivial
  change (if l'.litresSold < 0 then _ else next).Yields db Q (view.apply (.setLine l')) _
  split
  · trivial
  next hneg => exact hok l l' _ hfi hrec (not_lt.mp hneg)

/-- An accepted correction of a verified closing writes its verification and, if there is a close
line, the recomputed line. -/
theorem yields_handleVerifyCorrectReading {reason : String}
    (hok : ∀ r db' n', OnlyVerdicts db db' → Q r db' n')
    (hln : ∀ r nozzle l l' db' n', OnlyVerdicts db db' → AboveOpening db shift nozzle verified →
      findLine db shift nozzle = some l → l.recompute verified = some l' → 0 ≤ l'.litresSold →
      Q r (db'.apply (.setLine l')) n') :
    (handleVerifyCorrectReading env actor shift readingId verified reason).Yields db Q db n := by
  unfold handleVerifyCorrectReading
  split
  · trivial
  split
  · trivial
  refine yields_loadClosingForVerdict fun s m n1 hn1 hid _ _ ↦
    yields_read rfl fun (nozzle : Option Nozzle) ↦ ?_
  subst hid
  rcases nozzle with _ | z
  · trivial
  dsimp only
  split
  · refine yields_checkOpening fun habo ↦
      yields_upsertVerificationClearingHold fun v view n2 hvw ↦ ?_
    split
    · exact yields_recomputeRow hvw.lines (fun n' ↦ hok _ view n' hvw)
        fun l l' n' hfi hrec hnn ↦
          hln _ m.nozzleId l l' view n' hvw habo hfi hrec hnn
    · exact hok _ view n2 hvw
  · trivial

/-! ## Closing -/

/-- The input of a close line comes from the figures of a nozzle that has not rolled back. -/
def CloseReads.Justifies (reads : CloseReads) (shift : Uuid) (input : CloseLineInput) : Prop :=
  ∃ nozzle opening closing, ∃ price : ℤ, reads.opening nozzle = some opening ∧
    reads.closing nozzle = some closing ∧ nozzle ∉ reads.rolledBack ∧
    input = ⟨shift, nozzle, (opening : ℚ) / 10 ^ 3, (closing : ℚ) / 10 ^ 3, (price : ℚ) / 10 ^ 2⟩

theorem justifies_addNozzle {z : Nozzle} (h : ∀ i ∈ g.lineInputs, reads.Justifies shift i) :
    ∀ i ∈ ((g.checkDip reads z).addNozzle reads shift z nozzle).lineInputs,
      reads.Justifies shift i := by
  have hdip : (g.checkDip reads z).lineInputs = g.lineInputs := by
    unfold Gathered.checkDip
    split <;> rfl
  intro i hi
  unfold Gathered.addNozzle at hi
  split at hi
  next opening closing hop hcls =>
    split at hi
    · exact h i (hdip ▸ hi)
    next hroll =>
      rw [hdip] at hi
      rcases mem_append.mp hi with hi | hi
      · exact h i hi
      · exact ⟨nozzle, opening, closing, z.defaultPrice, hop, hcls, hroll,
          mem_singleton.mp hi⟩
  · exact h i (hdip ▸ hi)

theorem yields_gather {next : Gathered → Txn env} {assignments : List NozzleAssignment}
    (hg : ∀ i ∈ g.lineInputs, reads.Justifies shift i)
    (hok : ∀ g' n', (∀ i ∈ g'.lineInputs, reads.Justifies shift i) →
      (next g').Yields db Q db n') :
    (gather env reads shift next assignments g).Yields db Q db n := by
  induction assignments generalizing g n with
  | nil => exact hok g n hg
  | cons a as ih =>
    refine yields_read rfl ?_
    rintro (_ | z)
    · trivial
    · exact ih (justifies_addNozzle hg)

theorem insertCloseLine_eq_ok {input : CloseLineInput} (h : insertCloseLine db input = .ok l) :
    input.row = some l := by
  unfold insertCloseLine at h
  split at h
  · cases h
  next l' hrow =>
  split at h
  · cases h
  · cases h
    exact hrow

theorem yields_insertCloseLines {next : List CloseLine → Txn env} {inputs : List CloseLineInput}
    {lines : List CloseLine} (hvw : view = { db with lines := db.lines ++ lines })
    (hok : ∀ lines' n', (∀ l ∈ lines', l ∈ lines ∨ ∃ i ∈ inputs, i.row = some l) →
      (next lines').Yields db Q { db with lines := db.lines ++ lines' } n') :
    (insertCloseLines env next inputs lines).Yields db Q view n := by
  induction inputs generalizing lines view n with
  | nil => exact hvw ▸ hok lines n fun l hl ↦ .inl hl
  | cons input inputs ih =>
    rw [insertCloseLines, Prog.yields_query]
    simp only [exec]
    rcases hins : insertCloseLine view input with e | l
    · trivial
    have hrow := insertCloseLine_eq_ok hins
    have hvw' : view.apply (.insertLine l) = { db with lines := db.lines ++ (lines ++ [l]) } := by
      rw [hvw, ← append_assoc]
      rfl
    refine ih hvw' fun lines' n' hlns' ↦ hok lines' n' fun l' hl' ↦ ?_
    rcases hlns' l' hl' with hl' | ⟨i, hi, hrow'⟩
    · rcases mem_append.mp hl' with hl' | hl'
      · exact .inl hl'
      · rw [mem_singleton.mp hl']
        exact .inr ⟨input, mem_cons_self, hrow⟩
    · exact .inr ⟨i, mem_cons_of_mem _ hi, hrow'⟩

def closeLog (lines : List CloseLine) (s : Shift) : List Write :=
  lines.map .insertLine ++ [.setShift s]

theorem replay_insertLines (lines : List CloseLine) (db : ShiftDb) :
    replay (S := schema env) db (lines.map .insertLine)
      = { db with lines := db.lines ++ lines } := by
  induction lines generalizing db with
  | nil => rw [map_nil, replay_nil, append_nil]
  | cons l lines ih =>
    rw [map_cons, replay_cons, ih]
    simp [ShiftDb.apply]

theorem replay_closeLog (lines : List CloseLine) (s : Shift) (db : ShiftDb) :
    replay (S := schema env) db (closeLog lines s)
      = { db with
          lines := db.lines ++ lines
          shifts := db.shifts.map fun s' ↦ if s'.id = s.id then s else s' } := by
  rw [closeLog, replay_append, replay_insertLines]
  rfl

theorem yields_finishClose {lines : List CloseLine}
    (hok : ∀ r s n', db.shifts.find? (·.id = shift) = some s →
      Q r (replay (S := schema env) db (closeLog lines (s.close actor now))) n') :
    (finishClose env actor shift now lines).Yields db Q
      { db with lines := db.lines ++ lines } n := by
  rw [finishClose, Prog.yields_query]
  simp only [exec]
  rcases hfi : db.shifts.find? (·.id = shift) with _ | s
  · rw [hfi]
    trivial
  rw [hfi]
  refine yields_read rfl ?_
  rintro (_ | expected)
  · trivial
  have hcl := hok (ShiftResult.closed (s.close actor now) lines expected) s (n + 1 + 1) hfi
  rw [replay_closeLog] at hcl
  exact hcl

def closeReads (db : ShiftDb) (shift : Uuid) : CloseReads where
  meterRows := listActive db shift
  dipRows := db.fixtures.dips.filter fun d ↦ d.shiftId = shift ∧ d.status = .active
  finalClosing := finalClosingOverrides db shift
  rolledBack := rollbackNozzles db shift

/-- An accepted close inserts lines that its reads justify and closes the shift. -/
theorem yields_handleCloseShift
    (hok : ∀ r s lines n', db.shifts.find? (·.id = shift) = some s → s.status = .opened →
      (∀ l ∈ lines, ∃ i, (closeReads db shift).Justifies shift i ∧ i.row = some l) →
      Q r (replay (S := schema env) db (closeLog lines (s.close actor now))) n') :
    (handleCloseShift env actor shift now).Yields db Q db n := by
  refine yields_shiftForWrite fun s n1 _ _ hid _ ↦
    yields_read rfl fun (assignments : List NozzleAssignment) ↦ ?_
  split
  · trivial
  change (gather env (closeReads db s.id) s.id _ _ _).Yields db Q db _
  rw [hid]
  refine yields_gather nofun fun g n2 hg ↦ ?_
  unfold closeGathered
  split
  · trivial
  rw [yields_lock]
  refine yields_reply rfl ?_
  rintro (_ | locked) hlck
  · trivial
  dsimp only
  split
  · trivial
  next hst =>
  have hno : db = { db with lines := db.lines ++ [] } := by rw [append_nil]
  refine yields_insertCloseLines hno fun lines n3 hlns ↦ yields_finishClose
    fun r s' n4 hfi ↦ hok r s' lines n4 hfi ?_ fun l hl ↦ ?_
  · cases hfi.symm.trans hlck
    exact not_not.mp hst
  rcases hlns l hl with hl | ⟨i, hi, hrow⟩
  · cases hl
  · exact ⟨i, hg i hi, hrow⟩

end FuelGrid.Forecourt
