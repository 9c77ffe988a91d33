import FuelGrid.Station.Handlers

/-!
# What the station's handlers do when they run alone

One rule for each handler: to show a property `Q` of what an accepted request yields, it is enough
to show it for the rows that the request writes, with what the handler has checked about them. A
request of the forecourt does what it did there (`alone_forecourt`).
-/

namespace FuelGrid.Station

open Sql Forecourt

variable {env : StationEnv} {db view : StationDb} {n : ℕ} {Q : StationResult → StationDb → ℕ → Prop}
  {actor shift id day station : Uuid} {perm : StationPermission} {next : Txn env}
  {c : CashSubmission} {r : CollectionReceipt} {input : CollectionReceiptInput} {status : String}
  {override : Bool} {s : Shift} {now : ℤ}

theorem alone_forecourt {Q : Except StationError StationResult × StationDb × ℕ → Prop}
    {op : Forecourt.Op} (h : ∀ r, Q (r, { db with
      forecourt := ((op.prog env.forecourt).alone db.forecourt [] n).2.1 },
      ((op.prog env.forecourt).alone db.forecourt [] n).2.2)) :
    Q (((op.prog env.forecourt).lift (forecourtPart env)).alone db [] n) := by
  have hlift := (op.prog env.forecourt).alone_lift (forecourtPart env) db [] n
  rw [map_nil] at hlift
  rw [hlift]
  exact h _

theorem yields_authorizeStation (hok : next.Yields db Q view n) :
    (authorizeStation env actor perm station next).Yields db Q view n := by
  unfold authorizeStation
  split
  · exact hok
  · trivial

theorem yields_shiftForWrite {next : Shift → Txn env}
    (hok : ∀ s n', n ≤ n' → db.forecourt.shifts.find? (·.id = shift) = some s →
      (next s).Yields db Q db n') : (shiftForWrite env actor shift perm next).Yields db Q db n := by
  refine yields_reply rfl ?_
  rintro (_ | s) hfi
  · trivial
  · exact yields_authorizeStation (hok s _ (le_succ n) hfi)

theorem yields_shiftForScopedWrite {basePerm overridePerm : StationPermission}
    {next : Shift → Bool → Txn env}
    (hok : ∀ s override n', n ≤ n' → db.forecourt.shifts.find? (·.id = shift) = some s →
      (next s override).Yields db Q db n') :
    (shiftForScopedWrite env actor shift basePerm overridePerm next).Yields db Q db n := by
  refine yields_reply rfl ?_
  rintro (_ | s) hfi
  · trivial
  dsimp only
  split
  · exact hok s true _ (le_succ n) hfi
  split
  · refine yields_read rfl fun (onShift : Bool) ↦ ?_
    rcases onShift with _ | _
    · trivial
    · exact hok s false _ (by omega) hfi
  · trivial

/-! ## Cash -/

theorem CashSubmissionInput.row_eq_some {input : CashSubmissionInput} (h : input.row id = some c) :
    c.id = id ∧ c.shiftId = input.shiftId ∧ store 14 2 input.expectedCash = some c.expectedCash ∧
      store 14 2 input.total = some c.submittedTotal ∧
      store 14 2 (input.total - input.expectedCash) = some c.variance := by
  simp only [CashSubmissionInput.row, bind_eq_bind, bind_eq_some_iff, pure_def,
    some.injEq] at h
  obtain ⟨expected, hexp, _, -, _, -, _, -, _, -, total, htot, variance, hvar, rfl⟩ := h
  exact ⟨rfl, rfl, hexp, htot, hvar⟩

theorem insertCashSubmission_eq_ok {input : CashSubmissionInput}
    (h : insertCashSubmission db n input = .ok c) :
    input.row n = some c ∧ ∀ c' ∈ db.submissions, c'.shiftId ≠ input.shiftId := by
  unfold insertCashSubmission at h
  split at h
  · cases h
  next c' hrow =>
    split at h
    · cases h
    next hfr =>
      cases h
      exact ⟨hrow, fun c' hc' hid ↦ hfr ⟨c', hc', hid⟩⟩

def Write.Raises (shift : Uuid) : Write → Prop
  | .insertException e => e.shiftId = shift
  | _ => False

theorem yields_requireVarianceReason (hok : next.Yields db Q view n) :
    (requireVarianceReason env override c next).Yields db Q view n := by
  unfold requireVarianceReason
  split
  · split
    · trivial
    · split
      · exact hok
      · trivial
  · exact hok

theorem yields_submitInput {input : CashSubmissionInput}
    (hok : ∀ c raised k n', n ≤ k → k < n' → insertCashSubmission db k input = .ok c →
      (∀ w ∈ raised, w.Raises input.shiftId) →
      Q (.submission c) (replay (S := schema env) db (.insertSubmission c :: raised)) n') :
    (submitInput env override input).Yields db Q db n := by
  rw [submitInput, lockShiftStatusForShare, yields_lock]
  refine yields_read rfl ?_
  rintro (_ | status)
  · trivial
  dsimp only
  split
  · trivial
  rw [yields_lock]
  refine yields_step fun ws r hout ↦ ?_
  obtain ⟨e, -, rfl, rfl⟩ | ⟨c, hin, rfl, rfl⟩ := logged_eq hout
  · cases e <;> trivial
  · refine yields_requireVarianceReason ?_
    unfold raiseVariance
    split
    · refine hok c [_] _ _ (by omega) (by omega) hin fun w hw ↦ ?_
      rw [mem_singleton.mp hw]
      rfl
    · exact hok c [] _ _ (by omega) (by omega) hin nofun

/-- An accepted submission inserts its row on a closed shift and may raise an exception. -/
theorem yields_handleSubmitCash {req : CashSubmissionRequest}
    (hok : ∀ s t expected c raised k n', n ≤ k → k < n' →
      db.forecourt.shifts.find? (·.id = shift) = some s → s.status = .closed →
      req.tenders = some t → sumExpected db.forecourt shift = some expected →
      insertCashSubmission db k (req.input t shift actor expected) = .ok c →
      (∀ w ∈ raised, w.Raises shift) →
      Q (.submission c) (replay (S := schema env) db (.insertSubmission c :: raised)) n') :
    (handleSubmitCash env actor shift req).Yields db Q db n := by
  unfold handleSubmitCash
  split
  · trivial
  next t ht =>
  refine yields_shiftForScopedWrite fun s override n1 hn1 hfi ↦ ?_
  have hid : s.id = shift := by simpa using find?_some hfi
  subst hid
  split
  · trivial
  next hst =>
  refine yields_reply rfl ?_
  rintro (_ | expected) hexp
  · trivial
  · exact yields_submitInput
      fun c raised k n' hk hn hin hrai ↦ hok s t expected c raised k n' (by omega) hn hfi
        (not_not.mp hst) ht hexp hin hrai

theorem CollectionReceiptInput.row_eq_ok (h : input.row id = .ok r) :
    r.shiftId = input.shiftId ∧ r.cashSubmissionId = input.cashSubmissionId ∧
      r.status = input.status ∧ store 14 2 input.expectedAmount = some r.expectedAmount := by
  unfold CollectionReceiptInput.row at h
  split at h
  · cases h
  next expected submitted received difference hfig =>
  split at h <;> try cases h
  split at h <;> try cases h
  split at h <;> cases h
  simp only [CollectionReceiptInput.figures, bind_eq_bind, bind_eq_some_iff,
    pure_def, some.injEq] at hfig
  obtain ⟨expected', hexp, _, -, _, -, _, -, heq⟩ := hfig
  cases heq
  exact ⟨rfl, rfl, rfl, hexp⟩

/-- What the write of a receipt found: no receipt of the submission, or a hold. -/
inductive ReceiptWrite (db : StationDb) (r : CollectionReceipt) : Write → Prop
  | insert : (∀ r' ∈ db.receipts, r'.cashSubmissionId ≠ r.cashSubmissionId) →
      ReceiptWrite db r (.insertReceipt r)
  | replace {held : CollectionReceipt} :
      findHeldReceipt db r.cashSubmissionId = some held → ReceiptWrite db r (.setReceipt r)

theorem insertCollectionReceipt_eq_ok (h : insertCollectionReceipt db n input = .ok r) :
    input.row n = .ok r ∧ ReceiptWrite db r (.insertReceipt r) := by
  unfold insertCollectionReceipt at h
  split at h
  · cases h
  next r' hrow =>
    split at h
    · cases h
    next hfr =>
      cases h
      refine ⟨hrow, .insert fun r' hr' hid ↦ hfr ⟨r', hr', ?_⟩⟩
      rw [hid, (CollectionReceiptInput.row_eq_ok hrow).2.1]

theorem replaceHeldReceipt_eq_ok (h : replaceHeldReceipt db input = .ok (some r)) :
    (∃ id, input.row id = .ok r) ∧ ReceiptWrite db r (.setReceipt r) := by
  unfold replaceHeldReceipt at h
  split at h
  · cases h
  next held hhd =>
    rcases hrow : input.row held.id with e | r' <;> rw [hrow] at h <;> cases h
    have hid := (CollectionReceiptInput.row_eq_ok hrow).2.1
    exact ⟨⟨held.id, hrow⟩, .replace (hid.symm ▸ hhd)⟩

theorem yields_upsertReceipt (hok : ∀ r id w n', input.row id = .ok r → ReceiptWrite db r w →
      Q (.receipt r) (db.apply w) n') : (upsertReceipt env input).Yields db Q db n := by
  rw [upsertReceipt, yields_lock]
  refine yields_step fun ws r hout ↦ ?_
  obtain ⟨e, -, rfl, rfl⟩ | ⟨r, hin, rfl, rfl⟩ := logged_eq hout
  · cases e with
    | numericOverflow | checkViolation | foreignKeyViolation => trivial
    | uniqueViolation =>
      refine yields_read rfl fun (found : Bool) ↦ ?_
      rcases found with _ | _
      · trivial
      · refine yields_step fun ws r hout ↦ ?_
        obtain ⟨e, -, rfl, rfl⟩ | ⟨-, rfl, rfl⟩ | ⟨r, hrep, rfl, rfl⟩ := loggedRow_eq hout
        · trivial
        · trivial
        · obtain ⟨⟨id, hrow⟩, hw⟩ := replaceHeldReceipt_eq_ok hrep
          exact hok r id _ _ hrow hw
  · obtain ⟨hrow, hw⟩ := insertCollectionReceipt_eq_ok hin
    exact hok r n _ _ hrow hw

structure CollectionReceiptInput.Confirms (input : CollectionReceiptInput) (db : StationDb)
    (shift : Uuid) (c : CashSubmission) : Prop where
  found : getCashSubmission db shift = some c
  shift : input.shiftId = shift
  submission : input.cashSubmissionId = c.id
  expected : input.expectedAmount = (c.expectedCash : ℚ) / 10 ^ 2

/-- An accepted confirmation writes the receipt of the submission of a closed shift. -/
theorem yields_handleConfirmCashSubmission {receivedTotal : ℚ} {reason : String}
    (hok : ∀ s c input r id w n', db.forecourt.shifts.find? (·.id = shift) = some s →
      s.status = .closed → CollectionReceiptInput.Confirms input db shift c →
      input.row id = .ok r → ReceiptWrite db r w → Q (.receipt r) (db.apply w) n') :
    (handleConfirmCashSubmission env actor shift receivedTotal status reason).Yields db Q db n := by
  unfold handleConfirmCashSubmission
  split
  · trivial
  split
  · trivial
  refine yields_shiftForWrite fun s n1 hn1 hfi ↦ ?_
  have hid : s.id = shift := by simpa using find?_some hfi
  subst hid
  split
  · trivial
  next hst =>
  refine yields_reply rfl ?_
  rintro (_ | c) hfd
  · trivial
  dsimp only
  split
  · trivial
  split
  · trivial
  split
  · trivial
  rw [confirmInput, lockShiftStatusForShare, yields_lock]
  refine yields_read rfl ?_
  rintro (_ | locked)
  · trivial
  dsimp only
  split
  · trivial
  · exact yields_upsertReceipt fun r id w n' hrow hw ↦
      hok s c _ r id w n' hfi (not_not.mp hst) ⟨hfd, rfl, rfl, rfl⟩ hrow hw

/-! ## Exceptions and the approval -/

theorem yields_handleResolveShiftException (hok : ∀ e n', findOpenException db id = some e →
      Q (.exception (e.resolve actor)) (db.apply (.setException (e.resolve actor))) n') :
    (handleResolveShiftException env actor id status).Yields db Q db n := by
  unfold handleResolveShiftException
  split
  · trivial
  refine yields_read rfl ?_
  rintro (_ | e)
  · trivial
  refine yields_read rfl ?_
  rintro (_ | s)
  · trivial
  refine yields_authorizeStation ?_
  refine yields_read rfl fun (found : Bool) ↦ ?_
  rcases found with _ | _
  · trivial
  rw [if_pos rfl, yields_lock]
  refine yields_step fun ws r hout ↦ ?_
  obtain ⟨-, rfl, rfl⟩ | ⟨_, hres, rfl, rfl⟩ := loggedUpdate_eq hout
  · trivial
  · obtain ⟨e, hop, rfl⟩ := map_eq_some_iff.mp hres
    exact hok e _ hop

/-- The gates of the approval. -/
structure Approvable (db : StationDb) (shift : Uuid) : Prop where
  exceptions : openExceptionCount db shift = 0
  verified : closingVerificationGateCounts db.forecourt shift = (0, 0, 0)
  confirmed : cashSubmissionAwaitingReceipt db shift = false

theorem yields_approvalGates (hok : ∀ n', Approvable db shift → next.Yields db Q db n') :
    (approvalGates env shift next).Yields db Q db n := by
  rw [approvalGates, requireNoOpenException]
  refine yields_reply rfl fun (count : ℕ) hcnt ↦ ?_
  split
  · trivial
  next hexc =>
  refine yields_reply rfl fun (counts : ℕ × ℕ × ℕ) hcou ↦ ?_
  obtain ⟨unverified, rejected, flagged⟩ := counts
  dsimp only
  split
  · trivial
  next hrej =>
  split
  · trivial
  next hfla =>
  split
  · trivial
  next hunv =>
  refine yields_reply rfl fun (awaiting : Bool) hawa ↦ ?_
  rcases awaiting with _ | _
  · refine hok _ ⟨?_, hcou.trans ?_, hawa⟩
    · exact hcnt.trans (Nat.eq_zero_of_not_pos hexc)
    · rw [Nat.eq_zero_of_not_pos hunv, Nat.eq_zero_of_not_pos hrej,
        Nat.eq_zero_of_not_pos hfla]
  · trivial

theorem yields_handleApproveShift
    (hok : ∀ s n', db.forecourt.shifts.find? (·.id = shift) = some s →
      s.status = .closed → Approvable db shift →
      Q (.approved (approve s)) (db.apply (.forecourt (.setShift (approve s)))) n') :
    (handleApproveShift env actor shift status).Yields db Q db n := by
  unfold handleApproveShift
  split
  · trivial
  refine yields_shiftForWrite fun s n1 hn1 hfi ↦ ?_
  have hid : s.id = shift := by simpa using find?_some hfi
  subst hid
  split
  · trivial
  next hst =>
  split
  · trivial
  refine yields_approvalGates fun n2 _ ↦ ?_
  rw [approveLocked, yields_lock]
  refine yields_read rfl ?_
  rintro (_ | locked)
  · trivial
  dsimp only
  split
  · trivial
  refine yields_approvalGates fun n3 hgat ↦ ?_
  refine yields_step fun ws r hout ↦ ?_
  have hout : loggedUpdate (fun s ↦ .forecourt (.setShift s))
    ((db.forecourt.shifts.find? (·.id = s.id)).map approve) = (ws, r) := hout
  rw [hfi] at hout
  cases hout
  refine yields_read rfl fun (posted : Bool) ↦ ?_
  rcases posted with _ | _
  · trivial
  refine yields_read rfl fun (recognized : Bool) ↦ ?_
  rcases recognized with _ | _
  · trivial
  · exact hok s _ hfi (not_not.mp hst) hgat

/-! ## Shifts and days -/

def openLog (s : Shift) (day : Uuid) (users : List Uuid) : List Write :=
  [.forecourt (.insertShift s), .setDayOf s.id day] ++ users.map (.assignAttendant s.id)

theorem openLog_snoc (s : Shift) (day user : Uuid) (users : List Uuid) :
    openLog s day users ++ [.assignAttendant s.id user] = openLog s day (users ++ [user]) := by
  rw [openLog, openLog, map_append, append_assoc]
  rfl

theorem replay_openLog (env : StationEnv) (s : Shift) (day : Uuid) (users : List Uuid)
    (db : StationDb) :
    replay (S := schema env) db (openLog s day users) =
      { db with
        forecourt := { db.forecourt with
          shifts := db.forecourt.shifts ++ [s]
          fixtures := { db.forecourt.fixtures with
            attendants := db.forecourt.fixtures.attendants ++ users.map fun user ↦ (s.id, user) } }
        dayOf := db.dayOf ++ [(s.id, day)] } := by
  have hass : ∀ db1 : StationDb,
      replay (S := schema env) db1 (users.map (Write.assignAttendant s.id)) =
        { db1 with forecourt := { db1.forecourt with fixtures := { db1.forecourt.fixtures with
            attendants := db1.forecourt.fixtures.attendants ++
              users.map fun user ↦ (s.id, user) } } } := by
    induction users with
    | nil =>
      intro db1
      simp only [map_nil, append_nil]
      rfl
    | cons user users ih =>
      intro db1
      rw [map_cons, replay_cons, ih]
      simp only [StationDb.apply, addAttendant, map_cons, append_assoc, singleton_append]
  rw [openLog, replay_append, hass]
  rfl

theorem yields_assignAttendants (users assigned : List Uuid) (hok : ∀ users n', n ≤ n' →
      Q (.opened s) (replay (S := schema env) db (openLog s day users)) n') :
    (assignAttendants env s users).Yields db Q
      (replay (S := schema env) db (openLog s day assigned)) n := by
  induction users generalizing assigned n with
  | nil => exact hok assigned n le_rfl
  | cons user users ih =>
    refine yields_step fun ws (r : Bool) hout ↦ ?_
    have hout : (if (s.id, user) ∈ (replay (S := schema env) db
        (openLog s day assigned)).forecourt.fixtures.attendants then ([], false)
      else ([Write.assignAttendant s.id user], true)) = (ws, r) := hout
    split at hout <;> cases hout
    · trivial
    · rw [if_pos rfl, ← replay_append, openLog_snoc]
      exact ih _ fun users n' _ ↦ hok users n' (by omega)

/-- An accepted opening inserts a shift with a new id on a day that is open. -/
theorem yields_handleOpenShift {day : Option Uuid} {name : String} {slot : Option Slot}
    {openedAt : ℤ} {overrideReason : String} (hok : ∀ day users k n', n ≤ k → k < n' →
      Q (.opened ⟨k, station, .opened, openedAt, none, none⟩) (replay (S := schema env) db
        (openLog ⟨k, station, .opened, openedAt, none, none⟩ day users)) n') :
    (handleOpenShift env actor station day name slot openedAt overrideReason).Yields db Q db n := by
  unfold handleOpenShift
  split
  · trivial
  next day =>
  split
  · trivial
  split
  · trivial
  refine yields_read rfl ?_
  rintro (_ | d)
  · trivial
  dsimp only
  split
  · trivial
  split
  · trivial
  refine yields_read rfl fun (blockers : List String) ↦ ?_
  split
  · trivial
  refine yields_read rfl fun (team : ScheduledTeam) ↦ ?_
  rcases team with _ | _ | members
  · trivial
  · trivial
  dsimp only
  split
  · trivial
  rw [openOnDay, yields_lock]
  refine yields_read rfl ?_
  rintro (_ | status)
  · trivial
  dsimp only
  split
  · trivial
  refine yields_read rfl fun (unapproved : List Uuid) ↦ ?_
  have hin : (insertShift env station day openedAt (members.filterMap id)).Yields db Q db
      (n + 1 + 1 + 1 + 1 + 1) := by
    refine yields_assignAttendants (s := ⟨n + 1 + 1 + 1 + 1 + 1, station, .opened, openedAt, none,
      none⟩) _ [] fun users n' _ ↦ ?_
    exact hok day users _ n' (by omega) (by omega)
  split
  · exact hin
  split
  · trivial
  · exact yields_authorizeStation hin

theorem yields_handleUpdateOperatingDayStatus {status : DayStatus}
    (hok : ∀ d n', Q (.day d) (db.apply (.setDay d)) n') :
    (handleUpdateOperatingDayStatus env actor day status now).Yields db Q db n := by
  have hset : ∀ n', Prog.Yields (S := schema env) db Q
      (.query (.setStatus day status actor now) (answerDay env)) db n' := by
    intro n'
    refine yields_step fun ws r hout ↦ ?_
    obtain ⟨-, rfl, rfl⟩ | ⟨d, hfi, rfl, rfl⟩ := loggedUpdate_eq hout
    · trivial
    · exact hok _ _
  unfold handleUpdateOperatingDayStatus
  split
  · trivial
  refine yields_read rfl ?_
  rintro (_ | before)
  · trivial
  refine yields_authorizeStation ?_
  rw [changeStatus, yields_lock]
  refine yields_read rfl ?_
  rintro (_ | locked)
  · trivial
  dsimp only
  split
  · trivial
  split
  · trivial
  unfold requireNoOpenShift
  split
  · refine yields_read rfl fun (count : ℕ) ↦ ?_
    split
    · trivial
    · exact hset _
  · exact hset _

theorem yields_handleLockOperatingDay (hok : ∀ d n', Q (.day d) (db.apply (.setDay d)) n') :
    (handleLockOperatingDay env actor day now).Yields db Q db n := by
  unfold handleLockOperatingDay
  refine yields_read rfl ?_
  rintro (_ | before)
  · trivial
  refine yields_authorizeStation ?_
  split
  · trivial
  refine yields_read rfl fun (unapproved : ℕ) ↦ ?_
  split
  · trivial
  rw [yields_lock]
  refine yields_step fun ws r hout ↦ ?_
  obtain ⟨-, rfl, rfl⟩ | ⟨d, hfi, rfl, rfl⟩ := loggedUpdate_eq hout
  · trivial
  · exact hok _ _

/-- A row with a new id has the stamp of its statement. -/
def Write.Generated (n : ℕ) : Write → Prop
  | .forecourt (.insertShift s) => s.id = n
  | .setDayOf shift _ => shift = n
  | .insertSubmission c => c.id = n
  | _ => True

private theorem insertShift_of_exec {env : Env} {q : Forecourt.Query} {committed view : ShiftDb}
    {n : ℕ} (h : .insertShift s ∈ (Forecourt.exec env q committed view n).1) : s.id = n := by
  cases q with
  | capture => obtain ⟨_, -, hw⟩ := mem_logged h; cases hw
  | insertVerification => obtain ⟨_, -, hw⟩ := mem_logged h; cases hw
  | insertCloseLine => obtain ⟨_, -, hw⟩ := mem_logged h; cases hw
  | replaceHold => obtain ⟨_, -, hw⟩ := mem_loggedRow h; cases hw
  | recomputeCloseLine => obtain ⟨_, -, hw⟩ := mem_loggedRow h; cases hw
  | closeShift => obtain ⟨_, -, hw⟩ := mem_loggedUpdate h; cases hw
  | supersede =>
    simp only [Forecourt.exec] at h
    split at h
    · cases mem_singleton.mp h
    · cases h
  | elsewhere e =>
    rcases e with f | ⟨station, openedAt⟩ | id
    · cases mem_singleton.mp h
    · cases mem_singleton.mp h
      rfl
    · obtain ⟨_, -, hw⟩ := map_eq_some_iff.mp (mem_toList.mp h)
      cases hw
  | getShift | isAttendantOnShift | getNozzle | nozzleAssigned | expectedOpening | getReading
  | activeClosingRejected | findActive | activeReading | findHold | unverifiedClosing | findLine
  | listNozzleAssignments | listActive | listDips | finalClosingOverrides | rollbackNozzles
  | sumExpected => cases h

theorem generated_of_exec {env : StationEnv} {q : Query} {committed view : StationDb} {n : ℕ}
    {w : Write} (h : w ∈ (exec env q committed view n).1) : w.Generated n := by
  cases q with
  | forecourt q =>
    obtain ⟨w', hw', rfl⟩ := mem_map.mp h
    cases w' with
    | insertShift s => exact insertShift_of_exec hw'
    | insertReading | supersede | insertVerification | setVerification | insertLine | setLine
    | setShift | setFixtures => trivial
  | openShift station day openedAt =>
    rcases mem_cons.mp h with rfl | h
    · rfl
    · cases mem_singleton.mp h
      rfl
  | insertCashSubmission input =>
    obtain ⟨c, hins, rfl⟩ := mem_logged h
    exact (CashSubmissionInput.row_eq_some (insertCashSubmission_eq_ok hins).1).1
  | assignAttendant shift user =>
    simp only [exec] at h
    split at h
    · cases h
    · cases mem_singleton.mp h
      trivial
  | setStatus => obtain ⟨_, -, rfl⟩ := mem_loggedUpdate h; trivial
  | lockDay => obtain ⟨_, -, rfl⟩ := mem_loggedUpdate h; trivial
  | approveShift => obtain ⟨_, -, rfl⟩ := mem_loggedUpdate h; trivial
  | resolveException => obtain ⟨_, -, rfl⟩ := mem_loggedUpdate h; trivial
  | insertCollectionReceipt => obtain ⟨_, -, rfl⟩ := mem_logged h; trivial
  | replaceHeldReceipt => obtain ⟨_, -, rfl⟩ := mem_loggedRow h; trivial
  | raiseException => rw [mem_singleton.mp h]; trivial
  | getDay | dayStatus | shiftStatus | openShiftBlockers | scheduledTeamFor
  | closedUnapprovedShiftIds | openShiftCount | unapprovedShiftCount | openExceptionCount
  | closingVerificationGateCounts | cashSubmissionAwaitingReceipt | postShiftSales
  | recognizeShiftRevenue | getCashSubmission | findHeldReceipt | getException
  | findOpenException =>
    cases h

end FuelGrid.Station
