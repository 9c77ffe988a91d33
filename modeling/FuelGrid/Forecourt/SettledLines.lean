import FuelGrid.Forecourt.SettledContract

/-!
# Close lines follow the verified closings

The requests around the close of a shift are executed under the contract of `SettledContract`.
-/

namespace FuelGrid.Forecourt

open Sql

variable {env : Env}

section Safe

variable {op : Op} {held : Set LockKey} {log : List Write} {db : ShiftDb} {n : ℕ}

variable (env op) in
private theorem settleContract_verdictTerms : VerdictTerms (settleContract env op) where
  keys hinv := hinv.keys
  readings hr := hr.readings
  verdict hr := hr.verdict

/-- A closing that a verdict is given on, with the shift as it was read. -/
structure Loaded (db : ShiftDb) (s : Shift) (m : MeterReading) : Prop where
  mem : m ∈ db.readings
  active : m.ActiveFor s.id m.nozzleId .closing
  shut : s.status ≠ .opened → Shut db s.id

variable {l : Local (schema env)} {db' : ShiftDb} {s : Shift} {m : MeterReading} {r : ShiftResult}
  {v : Verification} {w : Write} {actor shift readingId : Uuid} {reason : String} {verified : ℚ}
  {reads : CloseReads} {now : ℤ} {lines : List CloseLine}

theorem Loaded.rely (h : Loaded db s m) (hr : SettleRely op l db db') : Loaded db' s m where
  mem := hr.readings ▸ h.mem
  active := h.active
  shut hs := hr.shut _ (h.shut hs)

/-- If the request is a correction, the shift is open as long as it was read so. -/
def StillOpen (op : Op) (db : ShiftDb) (s : Shift) : Prop :=
  op.corrects = some s.id → Shut db s.id → s.status ≠ .opened

theorem StillOpen.rely (h : StillOpen op db s) (hr : SettleRely op l db db') (hl : Started l) :
    StillOpen op db' s :=
  fun hop hsh ↦ h hop (hr.opened _ (.inr ⟨hop, hl⟩) hsh)

/-- What a request knows about the shift it has read. -/
def ReadShift (op : Op) (s : Shift) (db : ShiftDb) : Prop :=
  (s.status ≠ .opened → Shut db s.id) ∧ StillOpen op db s

private theorem readShift_of_mem (hinv : SettledInv db) (hs : s ∈ db.shifts) : ReadShift op s db :=
  ⟨hinv.keys.shut hs, fun _ hsh ↦ hsh s hs rfl⟩

private theorem readShift_stable (s : Shift) : Stable (settleContract env op) (ReadShift op s) :=
  ⟨fun hstd hr h ↦
    ⟨fun hst ↦ hr.shut _ (h.1 hst), h.2.rely hr hstd⟩⟩

/-- A verdict commits, if a correction finds no line of its nozzle. -/
theorem safe_commit_verdict (hw : VerdictWrite db v w) (hhd : .verification v.readingId ∈ held)
    (hv : v.Keeps db) (hop : v.status = .corrected → op.corrects = some v.shiftId)
    (hln : ∀ db', SettledInv db' →
      SettleRely op (⟨held, [w], .commit r⟩ : Local (schema env)) db db' → v.status = .corrected →
      ∀ m ∈ db'.readings, m.id = v.readingId → findLine db' m.shiftId m.nozzleId = none) :
    (settleContract env op).Safe (.commit r) held [w] db n := by
  intro db' n' _ hr hinv _
  have hj : Judged db' (db'.apply w) [v] :=
    (hw.rely (settleContract_verdictTerms env op) hhd hr).judged hinv.keys
  have hvs : ∀ v' ∈ [v], v'.Keeps db' := by
    intro v' hv' m hm hid
    rw [mem_singleton.mp hv'] at hid ⊢
    exact hv m (hr.readings ▸ hm) hid
  refine ⟨hj.settleGuar hinv.keys hvs (fun v' hv' ↦ ?_) fun v' hv' ↦ ?_,
    hinv.judged hj hvs fun v' hv' ↦ ?_, trivial⟩ <;> rw [mem_singleton.mp hv']
  · exact hhd
  · exact hop
  · exact hln db' hinv hr

/-- Approving, rejecting and flagging leave the closing as it is. -/
theorem safe_verdict {verb : String} {status : VerificationStatus} {reason : Option String}
    (hst : status ≠ .corrected) :
    (settleContract env op).Safe (loadClosingForVerdict env actor shift readingId verb fun _ m ↦
      recordReadingVerdict env actor m status reason) ∅ [] db n := by
  refine safe_recordVerdict (settleContract_verdictTerms env op) readShift_of_mem readShift_stable
    fun s m v w db' n' hks _ hm hrow hw ↦ ?_
  obtain ⟨hid, hv, hkp⟩ := verdict_row hks hm.1 hrow
  have hne : v.status ≠ .corrected := hv ▸ hst
  exact safe_commit_verdict hw (hid ▸ mem_insert _ _) hkp (fun h ↦ absurd h hne)
    fun _ _ _ h ↦ absurd h hne

theorem Batch.commit {vs : List Verification} (h : Batch held vs db) :
    (settleContract env op).Safe (.commit r) held (vs.map .insertVerification) db n := by
  intro db' n' _ hr hinv _
  have h' := h.rely (settleContract_verdictTerms env op) subset_rfl hr
  have hj := judged_insert hinv.keys h'.key h'.fresh
  have hne : ∀ v ∈ vs, v.status ≠ .corrected := fun v hv hcor ↦ by
    rw [h.approved v hv] at hcor
    cases hcor
  have hvw := replay_insertVerifications env vs db'
  refine ⟨?_, ?_, trivial⟩
  · change SettleGuar op held db' (replay (S := schema env) db' (vs.map .insertVerification))
    rw [hvw]
    exact hj.settleGuar hinv.keys h'.keeps h'.locked fun v hv h ↦ absurd h (hne v hv)
  · change SettledInv (replay (S := schema env) db' (vs.map .insertVerification))
    rw [hvw]
    exact hinv.judged hj h'.keeps fun v hv h ↦ absurd h (hne v hv)

/-! ## Corrections

A correction keeps what it has read about its shift (`StillOpen`) and its verdict (`VerdictWrite`).
-/

/-- A correction commits without a line: the shift is open, or it is shut and has none. -/
theorem safe_commit_correction (hks : Keys db) (hloa : Loaded db s m)
    (hopen : StillOpen op db s) (hop : op.corrects = some s.id)
    (hrow : (m.correction verified reason actor).row = .ok v) (hw : VerdictWrite db v w)
    (hhd : .verification m.id ∈ held)
    (hln : s.status = .opened ∨ findLine db s.id m.nozzleId = none) :
    (settleContract env op).Safe (.commit r) held [w] db n := by
  obtain ⟨hid, hsh, -, -, hkp⟩ := correction_row hks hloa.mem hrow
  refine safe_commit_verdict hw (hid ▸ hhd) hkp (fun _ ↦ ?_) fun db' hinv' hr _ m' hm' hid' ↦ ?_
  · rw [hsh, hloa.active.1]
    exact hop
  · rw [hid] at hid'
    have hsm : m' = m :=
      inj_on_of_nodup_map hinv'.keys.readings hm' (hloa.rely hr).mem hid'
    rw [hsm, hloa.active.1]
    by_cases hst : s.status = .opened
    · -- an open shift has no lines
      refine findLine_eq_none.mpr fun l hl hkey ↦ ?_
      have hshut := (hinv'.lines l hl).1
      rw [(Prod.mk.inj hkey).1] at hshut
      exact hopen.rely hr rfl hop hshut hst
    · exact hr.noLine _ _ (hloa.shut hst) (hln.resolve_left hst)

/-- The line that a correction rewrites is the one it has locked. -/
theorem safe_commit_recomputed {l l' : CloseLine} (hks : Keys db) (hloa : Loaded db s m)
    (hop : op.corrects = some s.id) (hrow : (m.correction verified reason actor).row = .ok v)
    (hw : VerdictWrite db v w) (hhd : .verification m.id ∈ held)
    (hlck : .closeLine s.id m.nozzleId ∈ held) (hshut : Shut db s.id)
    (hfi : findLine db s.id m.nozzleId = some l) (hrec : l.recompute verified = some l')
    (hwh : (verified * 10 ^ 3).isInt) :
    (settleContract env op).Safe (.commit r) held [w, .setLine l'] db n := by
  obtain ⟨hid, hsh, hst, hfin, hkp⟩ := correction_row hks hloa.mem hrow
  obtain ⟨hlsh, hlno, hder, hcls⟩ := CloseLine.recompute_eq_some hrec hwh
  have hkey : l.shiftId = s.id ∧ l.nozzleId = m.nozzleId := by simpa using find?_some hfi
  have hm : m.shiftId = s.id := hloa.active.1
  intro db' n' _ hr hinv _
  have hj : Judged db' (db'.apply w) [v] :=
    (hw.rely (settleContract_verdictTerms env op) (hid ▸ hhd) hr).judged hinv.keys
  have hloa' := hloa.rely hr
  have hkp' : v.Keeps db' := fun m' hm' ↦ hkp m' (hr.readings ▸ hm')
  have hvs : ∀ v' ∈ [v], v'.Keeps db' := fun v' hv' ↦ by rwa [mem_singleton.mp hv']
  have hfi' : findLine db' m.shiftId m.nozzleId = some l := by
    rw [hm]
    exact (hr.line _ _ hlck hshut).trans hfi
  refine ⟨?_, ?_, trivial⟩
  · refine SettleGuar.setLine (hj.settleGuar hinv.keys hvs (fun v' hv' ↦ ?_) fun v' hv' _ ↦ ?_)
      hj.lines ?_
    · rw [mem_singleton.mp hv', hid]
      exact hhd
    · rw [mem_singleton.mp hv', hsh, hm]
      exact hop
    · rw [hlsh, hlno, hkey.1, hkey.2]
      exact hlck
  · refine hinv.recomputed hj hkp' hloa'.mem hid (hm ▸ hloa'.active) hst hfi' ?_
      hder (some.inj (hcls.symm.trans hfin))
    rw [CloseLine.key, hlsh, hlno, CloseLine.key]

private theorem safe_correct (hop : op.corrects = some shift) :
    (settleContract env op).Safe
      (handleVerifyCorrectReading env actor shift readingId verified reason) ∅ [] db n := by
  refine safe_handleVerifyCorrectReading (settleContract_verdictTerms env op) readShift_of_mem
    readShift_stable (fun s m v w held db' n' hid hks hs hm hrow hw hhd hln ↦ ?_)
    fun s m v w l l' held db' n' hid hcl hks hs hm hrow hw hhd hlck hfi hrec _ hc ↦ ?_
  · exact safe_commit_correction hks ⟨hm.1, hm.2, hs.1⟩ hs.2 (hid ▸ hop) hrow hw hhd hln
  · obtain ⟨_, _, _, hwh⟩ := hc
    have hst : s.status ≠ .opened := by
      rw [hcl]
      nofun
    exact safe_commit_recomputed hks ⟨hm.1, hm.2, hs.1⟩ (hid ▸ hop) hrow hw hhd hlck
      (hs.1 hst) hfi hrec hwh

/-! ## The close

A close keeps the figures that it has read (`CloseReads.Current`). -/

/-- The closings that the close has read are the settled ones. -/
def CloseReads.Current (reads : CloseReads) (shift : Uuid) (db : ShiftDb) : Prop :=
  ∀ nozzle closing, reads.closing nozzle = some closing →
    ∃ m ∈ db.readings, m.ActiveFor shift nozzle .closing ∧ closing = settledClosing db m

/-- The final figure of a closing, out of the rows that the close has read. -/
theorem finalOf_eq (hks : Keys db)
    (hfin : reads.finalClosing = finalClosingOverrides db shift) (hm : m ∈ db.readings)
    (hact : m.ActiveFor shift m.nozzleId .closing) : reads.finalOf m = settledClosing db m := by
  rw [← hks.finalReading_eq hm, CloseReads.finalOf, hfin, finalReading]
  -- the entries for this reading are those of its one verification
  have hent : ∀ e ∈ (finalClosingOverrides db shift).filter (·.1 = m.id),
      ∃ v, verdictOf db m.id = some v ∧ e.2 = v.finalApprovedReading := by
    intro e he
    obtain ⟨he, hid⟩ := mem_filter.mp he
    obtain ⟨v, hv, rfl⟩ := mem_map.mp he
    have hid : v.readingId = m.id := by simpa using hid
    exact ⟨v, hid ▸ hks.verdictOf_eq (mem_of_mem_filter hv), rfl⟩
  change _ = ((verdictOf db m.id).map _).getD _
  rcases hlast : ((finalClosingOverrides db shift).filter (·.1 = m.id)).getLast? with _ | e <;>
    rw [hlast]
  · rcases hfi : verdictOf db m.id with _ | v
    · rfl
    · obtain ⟨hv, hid⟩ := mem_of_verdictOf hfi
      have hsh : v.shiftId = shift :=
        (hks.verdicts v hv m hm hid.symm).1.trans hact.1
      have hnil := List.getLast?_eq_none_iff.mp hlast
      refine absurd (mem_filter.mpr ⟨mem_map.mpr ⟨v, mem_filter.mpr ⟨hv, ?_⟩, rfl⟩, ?_⟩)
        (hnil ▸ not_mem_nil)
      · exact decide_eq_true ⟨hsh, m, hm, hid.symm, hact.2.2.1, hact.2.2.2⟩
      · exact decide_eq_true hid
  · obtain ⟨v, hfi, hval⟩ := hent e (List.mem_of_getLast? hlast)
    rw [hfi, map_some, map_some, getD_some, getD_some, hval]

private theorem current_of_reads {db0 : ShiftDb} (hks : Keys db)
    (hrds : db.readings = db0.readings) (hrs : reads.meterRows = listActive db0 shift)
    (hfin : reads.finalClosing = finalClosingOverrides db shift) : reads.Current shift db := by
  intro nozzle closing hcls
  obtain ⟨m, hlast, rfl⟩ := map_eq_some_iff.mp hcls
  obtain ⟨hmem, hty⟩ := mem_filter.mp (List.mem_of_getLast? hlast)
  rw [hrs] at hmem
  obtain ⟨hm, hact⟩ := mem_filter.mp hmem
  simp only [decide_eq_true_eq] at hty hact
  have hm : m ∈ db.readings := hrds ▸ hm
  refine ⟨m, hm, ⟨hact.1, hty.1, hty.2, hact.2⟩, ?_⟩
  exact finalOf_eq hks hfin hm ⟨hact.1, rfl, hty.2, hact.2⟩

theorem CloseReads.Current.rely (h : reads.Current shift db) (hop : op.closes = some shift)
    (hr : SettleRely op l db db') (hl : PastOverrides shift l) : reads.Current shift db' := by
  intro nozzle closing hcls
  obtain ⟨m, hm, hact, heq⟩ := h nozzle closing hcls
  exact ⟨m, hr.readings ▸ hm, hact,
    heq.trans (hr.closing shift hop hl m hm hact.1).symm⟩

private theorem safe_gather {next : Gathered → Txn env} {assignments : List NozzleAssignment}
    {g : Gathered} (hop : op.closes = some shift) (hcur : reads.Current shift db)
    (hg : ∀ i ∈ g.lineInputs, reads.Justifies shift i)
    (hnx : ∀ g' db' n', reads.Current shift db' →
      (∀ i ∈ g'.lineInputs, reads.Justifies shift i) →
      (settleContract env op).Safe (next g') held [] db' n') :
    (settleContract env op).Safe (gather env reads shift next assignments g) held [] db n := by
  induction assignments generalizing g db n with
  | nil => exact hnx g db n hcur hg
  | cons a as ih =>
    refine safe_reply rfl
      fun db1 n1 hr _ (found : Option Nozzle) _ ↦ ?_
    rcases found with _ | z
    · trivial
    · exact ih (hcur.rely hop hr (.inr rfl)) (justifies_addNozzle hg)

/-- The shift is locked and open, and the figures are still the settled ones. -/
structure Closing (reads : CloseReads) (shift : Uuid) (held : Set LockKey) (db : ShiftDb) :
    Prop where
  locked : .shift shift ∈ held
  current : reads.Current shift db
  opened : ¬Shut db shift

theorem Closing.rely {p : Txn env} (h : Closing reads shift held db)
    (hop : op.closes = some shift) (hr : SettleRely op ⟨held, log, p⟩ db db') :
    Closing reads shift held db' where
  locked := h.locked
  current := h.current.rely hop hr (.inl h.locked)
  opened hsh := h.opened (hr.opened shift (.inl h.locked) hsh)

private theorem settled_of_justifies {i : CloseLineInput} {l : CloseLine}
    (hcur : reads.Current shift db) (hi : reads.Justifies shift i) (hrow : i.row = some l) :
    l.shiftId = shift ∧ l.Settled db := by
  obtain ⟨nozzle, opening, closing, price, -, hcls, -, rfl⟩ := hi
  obtain ⟨m, hm, hact, heq⟩ := hcur nozzle closing hcls
  obtain ⟨hsh, hnoz, hop, hcls', hlit, hpri, hval⟩ := CloseLineInput.row_eq_some hrow
  refine ⟨hsh, ⟨m, hm, ?_, hcls'.trans heq⟩, by rw [hlit, hcls', hop], ?_⟩
  · rw [hsh, hnoz]
    exact hact
  · rw [hcls', hop, hpri]
    exact hval

private theorem safe_finishClose (hop : op.closes = some shift) (h : Closing reads shift held db)
    (hlns : ∀ l ∈ lines, ∃ i, reads.Justifies shift i ∧ i.row = some l) :
    (settleContract env op).Safe (finishClose env actor shift now lines) held
      (lines.map .insertLine) db n := by
  refine safe_query fun db1 n1 _ hr1 _ _ ws r hout ↦ ?_
  have h1 := h.rely hop hr1
  have hvw : (replay (S := schema env) db1 (lines.map .insertLine)).shifts = db1.shifts := by
    rw [replay_insertLines]
  obtain ⟨-, rfl, rfl⟩ | ⟨closed, hcl, rfl, rfl⟩ := loggedUpdate_eq hout
  · trivial
  obtain ⟨s, hfi, rfl⟩ := map_eq_some_iff.mp hcl
  rw [hvw] at hfi
  have hid : s.id = shift := (key_of_find? hfi).2
  refine safe_reply rfl ?_
  rintro db2 n2 hr2 _ (_ | expected) _
  · trivial
  intro db3 n3 _ hr3 hinv3 _
  have h3 := (h1.rely hop hr2).rely hop hr3
  have hset : ∀ l ∈ lines, l.shiftId = s.id ∧ l.Settled db3 := by
    intro l hl
    obtain ⟨i, hi, hrow⟩ := hlns l hl
    rw [hid]
    exact settled_of_justifies h3.current hi hrow
  refine ⟨?_, hinv3.close hset, trivial⟩
  exact settleGuar_close (hid ▸ h3.opened) (fun l hl ↦ (hset l hl).1) (hid ▸ hop)
    (hid ▸ h3.locked)

private theorem safe_insertCloseLines {inputs : List CloseLineInput} (hop : op.closes = some shift)
    (h : Closing reads shift held db) (hinp : ∀ i ∈ inputs, reads.Justifies shift i)
    (hlns : ∀ l ∈ lines, ∃ i, reads.Justifies shift i ∧ i.row = some l) :
    (settleContract env op).Safe
      (insertCloseLines env (finishClose env actor shift now) inputs lines) held
      (lines.map .insertLine) db n := by
  induction inputs generalizing lines db n with
  | nil => exact safe_finishClose hop h hlns
  | cons input inputs ih =>
    refine safe_query fun db1 n1 _ hr _ _ ws r hout ↦ ?_
    obtain ⟨e, -, rfl, rfl⟩ | ⟨l, hins, rfl, rfl⟩ := logged_eq hout
    · trivial
    have hrow := insertCloseLine_eq_ok hins
    have hnx : (settleContract env op).Safe
        (insertCloseLines env (finishClose env actor shift now) inputs (lines ++ [l])) held
        ((lines ++ [l]).map .insertLine) db1 (n1 + 1) := by
      refine ih (h.rely hop hr) (fun i hi ↦ hinp i (mem_cons_of_mem _ hi)) fun l' hl' ↦ ?_
      rcases mem_snoc.mp hl' with hl' | rfl
      · exact hlns l' hl'
      · exact ⟨input, hinp input mem_cons_self, hrow⟩
    rwa [map_append] at hnx

theorem safe_handleCloseShift (hop : op.closes = some shift) :
    (settleContract env op).Safe (handleCloseShift env actor shift now) ∅ [] db n := by
  refine safe_shiftForWrite fun s db1 n1 _ _ hid _ ↦
    safe_reply rfl
      fun db2 n2 hr2 _ (assignments : List NozzleAssignment) _ ↦ ?_
  subst hid
  split
  · trivial
  refine safe_reply rfl
    fun db3 n3 _ _ (meterRows : List MeterReading) hrs ↦ ?_
  refine safe_reply rfl
    fun db4 n4 hr4 _ (dipRows : List DipReading) _ ↦ ?_
  refine safe_reply rfl
    fun db5 n5 hr5 hinv5 (finalClosing : List (Uuid × ℤ)) hfin ↦ ?_
  refine safe_reply rfl
    fun db6 n6 hr6 _ (rolledBack : List Uuid) _ ↦ ?_
  have hcur : CloseReads.Current ⟨meterRows, dipRows, finalClosing, rolledBack⟩ s.id db5 :=
    current_of_reads hinv5.keys (hr5.readings.trans hr4.readings) hrs.symm hfin.symm
  refine safe_gather hop (hcur.rely hop hr6 (.inr rfl)) nofun
    fun g db7 n7 hcur7 hg ↦ ?_
  unfold closeGathered
  split
  · trivial
  intro db8 n8 _ hr8 _ _
  have hcur8 := hcur7.rely hop hr8 (.inr rfl)
  refine safe_reply rfl
    fun db9 n9 hr9 _ (locked : Option Shift) hlck ↦ ?_
  rcases locked with _ | locked
  · trivial
  dsimp only
  split
  · trivial
  next hst =>
    obtain ⟨hmem, hid⟩ := key_of_find? hlck
    refine safe_insertCloseLines hop ⟨mem_insert _ _, ?_, fun hsh ↦ hst fun hopd ↦ ?_⟩
      hg nofun
    · exact hcur8.rely hop hr9 (.inl (mem_insert _ _))
    · exact hsh locked hmem hid hopd

private theorem safe_elsewhere {e : Elsewhere} (he : (Op.elsewhere e).KeepsReadings) :
    (settleContract env op).Safe (.query (.elsewhere e) fun _ ↦ .commit .done) ∅ [] db n := by
  refine safe_query fun db1 n1 _ _ hinv1 _ ws _ hout ↦ ?_
  cases hout
  rcases e with f | _ | id
  · intro db2 n2 _ _ hinv2 _
    have hks := hinv2.keys
    refine ⟨⟨rfl, fun _ h ↦ h, fun _ _ _ h ↦ h, fun _ _ ↦ rfl, fun _ _ _ _ ↦ rfl, fun _ h ↦ .inl h,
      fun _ _ ↦ .inl rfl⟩, ⟨?_, hinv2.lines⟩, trivial⟩
    exact ⟨hks.shifts, hks.readings, hks.unique, hks.verifications, hks.verdicts⟩
  · exact he.elim
  · change (settleContract env op).Safe (.commit .done) ∅
      ((db1.shifts.find? fun s ↦ s.id = id ∧ s.status = .closed).map fun s ↦
        Write.setShift { s with status := .approved }).toList db1 (n1 + 1)
    rcases hfi : db1.shifts.find? fun s ↦ s.id = id ∧ s.status = .closed with _ | s
    · rw [hfi]
      intro db2 n2 _ _ hinv2 _
      exact ⟨⟨rfl, fun _ h ↦ h, fun _ _ _ h ↦ h, fun _ _ ↦ rfl, fun _ _ _ _ ↦ rfl,
        fun _ h ↦ .inl h, fun _ _ ↦ .inl rfl⟩, hinv2, trivial⟩
    · rw [hfi]
      have hcl : s.id = id ∧ s.status = .closed := by simpa using find?_some hfi
      have hsh : Shut db1 s.id :=
        hinv1.keys.shut (mem_of_find?_eq_some hfi) (by rw [hcl.2]; nofun)
      intro db2 n2 _ hr2 hinv2 _
      have hset : SettledInv _ ∧ SettleGuar op ∅ db2 _ :=
        settled_setShift (s := { s with status := .approved }) hinv2 (hr2.shut _ hsh) nofun
      exact ⟨hset.2, hset.1, trivial⟩

theorem safe_op_settled {op : Op} (hop : op.KeepsReadings) :
    (settleContract env op).Safe (op.prog env) ∅ [] db n := by
  cases op with
  | capture | correct => exact hop.elim
  | verifyCorrect actor shift readingId verified reason => exact safe_correct rfl
  | approve actor shift readingId => exact safe_verdict (by decide)
  | reject actor shift readingId reason =>
    simp only [Op.prog, handleRejectReading]
    split
    · trivial
    · exact safe_verdict (by decide)
  | flag actor shift readingId reason =>
    simp only [Op.prog, handleFlagReading]
    split
    · trivial
    · exact safe_verdict (by decide)
  | verifyShift actor shift =>
    exact safe_handleVerifyShiftReadings (settleContract_verdictTerms env _)
      fun held' vs count db' n' hbat _ ↦ hbat.commit
  | close actor shift now => exact safe_handleCloseShift rfl
  | elsewhere e => exact safe_elsewhere hop

end Safe

/-! ## Every run

In every run in which no close and no correction of the same shift overtake each other, the lines
show the settled closings (`settledLines_of_apart`). The race and a fourth decimal break that
(`not_settledLines_of_overtaking`). -/

/-- If no close and no correction of the same shift overtake each other, and lines are rewritten
from figures of three decimals, then every line shows the settled closing of its nozzle, and its
litres and its value are those of that closing. -/
theorem settledLines_of_apart (env : Env) {T : Type} [DecidableEq T] {ops : T → Op}
    (hops : ∀ t, (ops t).KeepsReadings) {db : ShiftDb} {n : ℕ} (hkeys : Keys db)
    (hlines : ∀ l ∈ db.lines, Shut db l.shiftId ∧ l.Settled db) {s : State (schema env) T}
    (hreach : Reach (InOrder ops)
      (State.init (S := schema env) db n fun t ↦ (ops t).prog env) s) :
    ∀ l ∈ s.db.lines, l.Settled s.db := by
  have hinv : SettledInv s.db := (Contract.soundEach (settleContract_suits ops) (fun h ↦ h)
    ⟨hkeys, hlines⟩ (fun t ↦ safe_op_settled (hops t)) hreach).1
  exact fun l hl ↦ (hinv.lines l hl).2

/-- One nozzle at a price of 50.00 whose meter shows four decimals. -/
def fineFixtures : Fixtures where
  nozzles := [⟨1, 0, 0, 5000, 4⟩]
  assignments := [⟨0, 1, 7⟩]
  attendants := [(0, 7)]
  dips := [⟨0, 0, .closing, .active⟩]

/-- The shift 0 with the opening 100 and the closing 200. -/
def readShift : ShiftDb where
  fixtures := fineFixtures
  shifts := [⟨0, 0, .opened, 0, none, none⟩]
  readings := [⟨5, 0, 1, .opening, 100000, 7, none, .active, by decide⟩,
    ⟨9, 0, 1, .closing, 200000, 7, none, .active, by decide⟩]
  verifications := []
  lines := []

/-- The close of the shift, and the correction of its closing to a figure. -/
def closeAndCorrect (verified : ℚ) : Fin 2 → Op
  | 0 => .close 8 0 0
  | 1 => .verifyCorrect 8 0 9 verified "meter misread"

/-- The start of a run of the two. -/
def closeAndCorrectState (verified : ℚ) : State (schema smallEnv) (Fin 2) :=
  State.init (S := schema smallEnv) readShift 10 fun t ↦ (closeAndCorrect verified t).prog smallEnv

theorem keys_readShift : Keys readShift where
  shifts := by decide
  readings := by decide
  unique := active_unique (by decide)
  verifications := by decide
  verdicts := nofun

/-- The closing is corrected after the close, from 200 to 150 litres. -/
theorem settledLines_of_apart_inTurn :
    ∃ s : State (schema smallEnv) (Fin 2),
      Reach (InOrder (closeAndCorrect 150)) (closeAndCorrectState 150) s ∧
      s.db.lines.map (·.litresSold) = [50000] ∧ ∀ l ∈ s.db.lines, l.Settled s.db := by
  refine exists_and_imp (fun s ↦ s.db.lines.map (·.litresSold) = [50000])
    (exists_of_runs (turns [(0, 13), (1, 10)]) (by decide +kernel)) ?_
  rintro _ hrch hlit
  have hops : ∀ t, (closeAndCorrect 150 t).KeepsReadings := fun
    | 0 => trivial
    | 1 => trivial
  exact ⟨hlit, settledLines_of_apart smallEnv hops keys_readShift nofun hrch⟩

/-- The correction reads the open shift, the shift is closed, and the correction commits: the line
still shows 200 litres. In the second run the correction follows the close, to 150.0004 litres: the
line shows the closing 150.000 and the value of 50.0004 litres. -/
theorem not_settledLines_of_overtaking :
    (∃ s : State (schema smallEnv) (Fin 2), Reach (fun _ _ ↦ True) (closeAndCorrectState 150) s ∧
      (∃ x ∈ s.db.shifts, x.status = .closed) ∧
      ∃ l ∈ s.db.lines, l.closingReading = 200000 ∧ ¬l.Settled s.db) ∧
    ∃ s : State (schema smallEnv) (Fin 2),
      Reach (fun _ _ ↦ True) (closeAndCorrectState (1500004 / 10000)) s ∧
      ∃ l ∈ s.db.lines, l.closingReading = 150000 ∧ l.expectedValue = 250002 ∧ ¬l.Settled s.db :=
  ⟨exists_of_runs (turns [(1, 1), (0, 13), (1, 6)]) (by decide +kernel),
    exists_of_runs (turns [(0, 13), (1, 10)]) (by decide +kernel)⟩

end FuelGrid.Forecourt
