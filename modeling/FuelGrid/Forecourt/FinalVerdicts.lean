import FuelGrid.Forecourt.VerdictSafety

/-!
# Final verdicts stay

A shift is approved once all of its active closings have a final verdict, and a final verdict cannot
be overwritten. The requests that give verdicts look at the status of the shift on the pool only, so
one of them can still be on its way when the shift is approved. It finds the final verdict then and
is refused: what it commits is always about a shift that is not approved.

`verdictContract` states that on the tables of the forecourt: whatever the others do to
verifications that a request has not locked, its commit leaves the records of approved shifts alone.
-/

namespace FuelGrid.Forecourt

open Sql

variable {env : Env}

def ApprovedIn (db : ShiftDb) (shift : Uuid) : Prop :=
  ∃ s ∈ db.shifts, s.id = shift ∧ s.status = .approved
  deriving Decidable

/-- Every active closing of the shift has been approved or corrected. -/
def Verified (db : ShiftDb) (shift : Uuid) : Prop :=
  ∀ m ∈ db.readings, m.ActiveFor shift m.nozzleId .closing →
    ∃ v ∈ db.verifications, v.readingId = m.id ∧ (v.status = .approved ∨ v.status = .corrected)
  deriving Decidable

/-- The verifications and the close lines of the shift are the same. -/
structure SameRecords (db db' : ShiftDb) (shift : Uuid) : Prop where
  verifications : db'.verifications.filter (·.shiftId = shift)
    = db.verifications.filter (·.shiftId = shift)
  lines : db'.lines.filter (·.shiftId = shift) = db.lines.filter (·.shiftId = shift)

theorem SameRecords.trans {db1 db2 db3 : ShiftDb} {shift : Uuid} (h : SameRecords db1 db2 shift)
    (h' : SameRecords db2 db3 shift) : SameRecords db1 db3 shift :=
  ⟨h'.verifications.trans h.verifications, h'.lines.trans h.lines⟩

/-- The keys hold, and the closings of approved shifts are verified. -/
structure VerdictInv (db : ShiftDb) : Prop where
  keys : Keys db
  verified : ∀ shift, ApprovedIn db shift → Verified db shift

/-- What a verdict promises: it writes locked verifications, which were holds if there were any, and
leaves approved shifts alone. -/
structure VerdictGuar (held : Set LockKey) (db db' : ShiftDb) : Prop where
  shifts : db'.shifts = db.shifts
  readings : db'.readings = db.readings
  verdict : ∀ r, .verification r ∉ held → verdictOf db' r = verdictOf db r
  final : ∀ v ∈ db.verifications, ¬v.status.Hold → v ∈ db'.verifications
  frozen : ∀ shift, ApprovedIn db shift → SameRecords db db' shift

/-- The terms of the verdicts on the tables of the forecourt. -/
def verdictContract (env : Env) : Contract (schema env) where
  inv db _ := VerdictInv db
  rely l db db' := db'.readings = db.readings ∧
    ∀ r, .verification r ∈ l.held → verdictOf db' r = verdictOf db r
  cond _ _ _ := True
  guar l db _ := VerdictGuar l.held db (replay (S := schema env) db l.log)
  post _ _ _ := True
  inv_tick h := h
  rely_refl _ _ := ⟨rfl, fun _ _ ↦ rfl⟩
  rely_trans h h' := ⟨h'.1.trans h.1, fun r hr ↦ (h'.2 r hr).trans (h.2 r hr)⟩

variable (env) in
private theorem verdictContract_terms : VerdictTerms (verdictContract env) where
  keys hinv := hinv.keys
  readings hr := hr.1
  verdict hr := hr.2

private theorem not_hold_of_final {status : VerificationStatus}
    (h : status = .approved ∨ status = .corrected) : ¬status.Hold := by
  rcases h with rfl | rfl <;> rintro (h | h) <;> cases h

/-! ## What the commits do

A final verdict stands, so verdicts that commit are about shifts that are not approved. -/

variable {v : Verification} {w : Write} {m : MeterReading}

section Commit

variable {held : Set LockKey} {db db' : ShiftDb} {vs : List Verification} {shift other : Uuid}

theorem VerdictGuar.verified (h : VerdictGuar held db db') (hver : Verified db shift) :
    Verified db' shift := by
  intro m hm hact
  rw [h.readings] at hm
  obtain ⟨v, hv, hid, hst⟩ := hver m hm hact
  exact ⟨v, h.final v hv (not_hold_of_final hst), hid, hst⟩

theorem Judged.final (hj : Judged db db' vs) (hks : Keys db) (hv : v ∈ db.verifications)
    (hhold : ¬v.status.Hold) : v ∈ db'.verifications := by
  have hfi : verdictOf db v.readingId = some v := hks.verdictOf_eq hv
  have hoth : ∀ v' ∈ vs, v'.readingId ≠ v.readingId := by
    intro v' hv' hid
    exact hhold (hj.old v' hv' v (hid ▸ hfi))
  rw [← hj.other _ hoth] at hfi
  exact (mem_of_verdictOf hfi).1

/-- A verdict is never about an approved shift: its closings have final verdicts. -/
theorem Judged.not_approved (hj : Judged db db' vs) (hinv : VerdictInv db)
    (hon : OnClosings db shift vs) (hv : v ∈ vs) : ¬ApprovedIn db shift := by
  intro happ
  obtain ⟨m, ⟨hm, hact⟩, hid⟩ := hon v hv
  obtain ⟨v', hv', hid', hfin⟩ := hinv.verified shift happ m hm hact
  have hfi : verdictOf db v.readingId = some v' := by
    rw [← hid, ← hid']
    exact hinv.keys.verdictOf_eq hv'
  exact not_hold_of_final hfin (hj.old v hv v' hfi)

/-- The promise of verdicts on closings of one shift, given that they leave the others alone. -/
theorem Judged.verdictGuar (hj : Judged db db' vs) (hinv : VerdictInv db)
    (hon : OnClosings db shift vs) (hhd : ∀ v ∈ vs, .verification v.readingId ∈ held)
    (hsm : ∀ other, (∀ v ∈ vs, other ≠ shift) → SameRecords db db' other) :
    VerdictGuar held db db' where
  shifts := hj.shifts
  readings := hj.readings
  verdict r hr := hj.other r fun v hv hid ↦ hr (hid ▸ hhd v hv)
  final _ hv := hj.final hinv.keys hv
  frozen other happ := by
    refine hsm other fun v hv hoth ↦ ?_
    exact hj.not_approved hinv hon hv (hoth ▸ happ)

theorem VerdictInv.of_guar (h : VerdictInv db) (hguar : VerdictGuar held db db')
    (hks : Keys db') : VerdictInv db' where
  keys := hks
  verified other := by
    rintro ⟨s, hs, hid⟩
    rw [hguar.shifts] at hs
    exact hguar.verified (h.verified other ⟨s, hs, hid⟩)

theorem OnClosings.shiftId (hon : OnClosings db shift vs) (hv : v ∈ vs) (hkp : v.Keeps db) :
    v.shiftId = shift := by
  obtain ⟨m, ⟨hm, hact⟩, hid⟩ := hon v hv
  rw [(hkp m hm hid).1]
  exact hact.1

private theorem sameRecords_insert (hon : OnClosings db shift vs) (hkp : ∀ v ∈ vs, v.Keeps db)
    (hne : ∀ v ∈ vs, other ≠ shift) :
    SameRecords db { db with verifications := db.verifications ++ vs } other := by
  refine ⟨?_, rfl⟩
  have hno : vs.filter (·.shiftId = other) = [] := by
    refine filter_eq_nil_iff.mpr fun v hv hoth ↦ hne v hv ?_
    rw [← of_decide_eq_true hoth]
    exact hon.shiftId hv (hkp v hv)
  dsimp only
  rw [filter_append, hno, append_nil]

theorem VerdictWrite.sameRecords (hw : VerdictWrite db v w) (hks : Keys db)
    (hon : OnClosings db shift [v]) (hkp : v.Keeps db) (hne : other ≠ shift) :
    SameRecords db (db.apply w) other := by
  have hv : v.shiftId = shift := hon.shiftId mem_cons_self hkp
  rcases hw with hno | ⟨hfi, -⟩
  · exact sameRecords_insert hon (fun v' hv' ↦ by rwa [mem_singleton.mp hv']) fun _ _ ↦ hne
  · refine ⟨filter_update ?_ fun x hx hid ↦ ?_, rfl⟩
    · rw [hv]
      exact decide_eq_false hne.symm
    · obtain ⟨m, ⟨hm, hact⟩, hmid⟩ := hon v mem_cons_self
      have hsh := (hks.verdicts x hx m hm (hmid.trans hid.symm)).1
      rw [hsh, hact.1]
      exact decide_eq_false hne.symm

/-- One verdict on a closing: its shift is not approved, and the promise holds. -/
theorem VerdictWrite.verdictGuar (hw : VerdictWrite db v w) (hinv : VerdictInv db)
    (hm : ClosingOf db shift m) (hid : v.readingId = m.id) (hkp : v.Keeps db)
    (hhd : .verification m.id ∈ held) :
    ¬ApprovedIn db shift ∧ VerdictGuar held db (db.apply w) ∧ Keys (db.apply w) := by
  have hon : OnClosings db shift [v] := by
    intro v' hv'
    rw [mem_singleton.mp hv']
    exact ⟨m, hm, hid.symm⟩
  have hj := hw.judged hinv.keys
  refine ⟨hj.not_approved hinv hon mem_cons_self, ?_, hj.keys hinv.keys fun v' hv' ↦ ?_⟩
  · refine hj.verdictGuar hinv hon (fun v' hv' ↦ ?_) fun other hoth ↦
      hw.sameRecords hinv.keys hon hkp (hoth v mem_cons_self)
    rw [mem_singleton.mp hv', hid]
    exact hhd
  · rwa [mem_singleton.mp hv']

end Commit

section Safe

variable {held : Set LockKey} {db : ShiftDb} {n : ℕ} {r : ShiftResult} {shift : Uuid}

private theorem safe_commit_final (hm : ClosingOf db shift m) (hid : v.readingId = m.id)
    (hkp : v.Keeps db) (hw : VerdictWrite db v w) (hhd : .verification m.id ∈ held) :
    (verdictContract env).Safe (.commit r) held [w] db n := by
  intro db' n' _ hr hinv _
  have hK := verdictContract_terms env
  have hkp' : v.Keeps db' := fun m' hm' ↦ hkp m' (hr.1 ▸ hm')
  obtain ⟨-, hguar, hks⟩ := (hw.rely hK (hid ▸ hhd) hr).verdictGuar hinv
    (hK.closingOf hr hm) hid hkp' hhd
  exact ⟨hguar, hinv.of_guar hguar hks, trivial⟩

private theorem safe_commit_final_line {l : CloseLine} (hm : ClosingOf db l.shiftId m)
    (hid : v.readingId = m.id) (hkp : v.Keeps db) (hw : VerdictWrite db v w)
    (hhd : .verification m.id ∈ held) :
    (verdictContract env).Safe (.commit r) held [w, .setLine l] db n := by
  intro db' n' _ hr hinv _
  have hK := verdictContract_terms env
  have hkp' : v.Keeps db' := fun m' hm' ↦ hkp m' (hr.1 ▸ hm')
  obtain ⟨hnot, hguar, hks⟩ := (hw.rely hK (hid ▸ hhd) hr).verdictGuar hinv
    (hK.closingOf hr hm) hid hkp' hhd
  have hgua' : VerdictGuar held db' ((db'.apply w).apply (.setLine l)) := by
    refine { hguar with frozen := fun other happ ↦ ?_ }
    refine (hguar.frozen other happ).trans ⟨rfl, filter_setLine ?_⟩
    rintro rfl
    exact hnot happ
  exact ⟨hgua', hinv.of_guar hgua'
    ⟨hks.shifts, hks.readings, hks.unique, hks.verifications, hks.verdicts⟩, trivial⟩

private theorem safe_commit_final_batch {vs : List Verification} (h : Batch held vs db)
    (hon : OnClosings db shift vs) :
    (verdictContract env).Safe (.commit r) held (vs.map .insertVerification) db n := by
  intro db' n' _ hr hinv _
  have hK := verdictContract_terms env
  have h' := h.rely hK subset_rfl hr
  have hon' := hon.rely hK hr
  have hj := judged_insert hinv.keys h'.key h'.fresh
  have hguar := hj.verdictGuar hinv hon' h'.locked fun other hne ↦
    sameRecords_insert hon' h'.keeps hne
  have hvw := replay_insertVerifications env vs db'
  refine ⟨?_, ?_, trivial⟩
  · change VerdictGuar held db' (replay (S := schema env) db' (vs.map .insertVerification))
    rw [hvw]
    exact hguar
  · change VerdictInv (replay (S := schema env) db' (vs.map .insertVerification))
    rw [hvw]
    exact hinv.of_guar hguar (hj.keys hinv.keys h'.keeps)

def Op.GivesVerdict : Op → Prop
  | .verifyCorrect .. | .approve .. | .reject .. | .flag .. | .verifyShift .. => True
  | _ => False

theorem safe_op_verdict {op : Op} (hop : op.GivesVerdict) :
    (verdictContract env).Safe (op.prog env) ∅ [] db n := by
  have hK := verdictContract_terms env
  have hI : ∀ _ : Shift, Stable (verdictContract env) fun _ ↦ True := fun _ ↦ ⟨fun _ _ h ↦ h⟩
  have hvd : ∀ {actor shift readingId : Uuid} {verb : String} {status : VerificationStatus}
      {reason : Option String}, (verdictContract env).Safe (loadClosingForVerdict env actor shift
        readingId verb fun _ m ↦ recordReadingVerdict env actor m status reason) ∅ [] db n := by
    intro actor shift readingId verb status reason
    refine safe_recordVerdict hK (fun _ _ ↦ trivial) hI fun s m v w db' n' hks _ hm hrow hw ↦ ?_
    obtain ⟨hid, -, hkp⟩ := verdict_row hks hm.1 hrow
    exact safe_commit_final hm hid hkp hw (mem_insert _ _)
  cases op with
  | capture | correct | close | elsewhere => exact hop.elim
  | verifyCorrect actor shift readingId verified reason =>
    refine safe_handleVerifyCorrectReading hK (fun _ _ ↦ trivial) hI
      (fun s m v w held db' n' _ hks _ hm hrow hw hhd _ ↦ ?_)
      fun s m v w l l' held db' n' _ _ hks _ hm hrow hw hhd _ hfi hrec _ _ ↦ ?_
    · obtain ⟨hid, -, -, -, hkp⟩ := correction_row hks hm.1 hrow
      exact safe_commit_final hm hid hkp hw hhd
    · obtain ⟨hid, -, -, -, hkp⟩ := correction_row hks hm.1 hrow
      have hsh : l'.shiftId = s.id := by
        rw [(CloseLine.key_of_recompute hrec).1]
        exact (key_of_findLine hfi).1
      exact safe_commit_final_line (hsh ▸ hm) hid hkp hw hhd
  | approve actor shift readingId => exact hvd
  | reject actor shift readingId reason =>
    simp only [Op.prog, handleRejectReading]
    split
    · trivial
    · exact hvd
  | flag actor shift readingId reason =>
    simp only [Op.prog, handleFlagReading]
    split
    · trivial
    · exact hvd
  | verifyShift actor shift =>
    exact safe_handleVerifyShiftReadings hK fun held' vs count db' n' hbat hon ↦
      safe_commit_final_batch hbat hon

end Safe

end FuelGrid.Forecourt
