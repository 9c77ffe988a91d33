import FuelGrid.Sql.RelyGuarantee
import FuelGrid.Forecourt.Verdicts

/-!
# Verdicts under a contract

The requests that give verdicts on closings read the shift and the reading on the pool, and then
write a verification that they have locked. What they write is the same under every contract that
leaves the readings alone and keeps a locked verification (`VerdictTerms`). This module executes the
requests once for all such contracts: each rule asks only that what the request commits is allowed.

A request also knows what it has read about its shift. That is a parameter `I` of the rules, which
has to survive what the others commit from then on (`Stable`).
-/

namespace FuelGrid.Forecourt

open Sql

variable {env : Env} {verb : String} {w : Write}

/-- The request has read the shift. -/
def Started (l : Local (schema env)) : Bool :=
  match l.prog with
  | .query (.getShift _) _ | .rollback _ => false
  | _ => true

/-- The contract leaves the readings alone and keeps a locked verification. -/
structure VerdictTerms (K : Contract (schema env)) : Prop where
  keys : ∀ {db n}, K.inv db n → Keys db
  readings : ∀ {l db db'}, K.rely l db db' → db'.readings = db.readings
  verdict : ∀ {l db db'}, K.rely l db db' → ∀ r, .verification r ∈ l.held →
    verdictOf db' r = verdictOf db r

/-- The contract keeps `I` once a request has read the shift. -/
structure Stable (K : Contract (schema env)) (I : ShiftDb → Prop) : Prop where
  keep : ∀ {l db db'}, Started l → K.rely l db db' → I db → I db'

def ClosingOf (db : ShiftDb) (shift : Uuid) (m : MeterReading) : Prop :=
  m ∈ db.readings ∧ m.ActiveFor shift m.nozzleId .closing

section Safe

variable {K : Contract (schema env)} {held : Set LockKey} {db db' : ShiftDb} {n : ℕ}
  {l : Local (schema env)} {shift actor readingId : Uuid} {m : MeterReading}

theorem VerdictTerms.closingOf (hK : VerdictTerms K) (hr : K.rely l db db')
    (h : ClosingOf db shift m) : ClosingOf db' shift m :=
  ⟨hK.readings hr ▸ h.1, h.2⟩

theorem Stable.closing {I : ShiftDb → Prop} (hI : Stable K I) (hK : VerdictTerms K) (shift : Uuid)
    (m : MeterReading) : Stable K fun db ↦ I db ∧ ClosingOf db shift m :=
  ⟨fun hstd hr h ↦ ⟨hI.keep hstd hr h.1, hK.closingOf hr h.2⟩⟩

theorem safe_shiftForWrite {perm : Permission} {requireOpen : Bool} {next : Shift → Txn env}
    (hnx : ∀ s db' n', K.inv db' n' → s ∈ db'.shifts → s.id = shift →
      (requireOpen → s.status = .opened) → K.Safe (next s) held [] db' n') :
    K.Safe (shiftForWrite env actor shift perm requireOpen next) held [] db n := by
  refine safe_reply rfl ?_
  rintro db1 n1 _ hinv (_ | s) hfi
  · trivial
  dsimp only
  split
  · unfold checkOpen
    split
    · trivial
    next hop =>
      obtain ⟨hs, hid⟩ := key_of_find? hfi
      exact hnx s db1 _ (K.inv_tick hinv) hs hid fun hreq ↦ by simpa [hreq] using hop
  · trivial

section Load

variable {I : Shift → ShiftDb → Prop} (hread : ∀ {s db n}, K.inv db n → s ∈ db.shifts → I s db)
  (hI : ∀ s, Stable K (I s))

include hread hI

theorem safe_loadClosingForVerdict {next : Shift → MeterReading → Txn env}
    (hnx : ∀ s m db' n', I s db' → ClosingOf db' s.id m → s.id = shift → s.status ≠ .approved →
      K.Safe (next s m) held [] db' n') :
    K.Safe (loadClosingForVerdict env actor shift readingId verb next) held [] db n := by
  refine safe_shiftForWrite fun s db1 n1 hinv1 hs hid _ ↦ ?_
  split
  · trivial
  next happ =>
  refine safe_reply rfl fun db2 n2 hr _ (found : Option MeterReading)
    hfi ↦ ?_
  rcases found with _ | m
  · trivial
  dsimp only
  split
  · trivial
  next hsh =>
  split
  · trivial
  next hty =>
  split
  · trivial
  next hact =>
  split
  · trivial
  refine hnx s m db2 _ ((hI s).keep rfl hr (hread hinv1 hs)) ⟨mem_of_find?_eq_some hfi, ?_⟩ hid
    happ
  exact ⟨not_not.mp hsh, rfl, not_not.mp hty, not_not.mp hact⟩

end Load

/-! ## Writing a verdict -/

variable {input : VerificationInput} {v : Verification} {status : VerificationStatus}
  {reason : Option String} {verified : ℚ}

theorem insertVerification_eq_ok (h : insertVerification db input = .ok v) :
    input.row = .ok v ∧ verdictOf db input.readingId = none := by
  unfold insertVerification at h
  split at h
  · cases h
  next v' hrow =>
  split at h
  · cases h
  next hfr =>
    cases h
    refine ⟨hrow, verdictOf_eq_none.mpr fun v' hv' hid ↦ hfr ⟨v', hv', hid⟩⟩

theorem replaceHold_eq_ok (hks : Keys db) (h : replaceHold db input = .ok (some v)) :
    input.row = .ok v ∧
      ∃ hold, verdictOf db input.readingId = some hold ∧ hold.status.Hold := by
  unfold replaceHold at h
  split at h
  · cases h
  next hold hfi =>
    obtain ⟨hid, hhold⟩ : hold.readingId = input.readingId ∧ hold.status.Hold := by
      simpa using find?_some hfi
    have hmem : hold ∈ db.verifications := mem_of_find?_eq_some hfi
    rcases hrow : input.row with e | v'
    · rw [hrow] at h
      cases h
    · rw [hrow] at h
      cases h
      exact ⟨rfl, hold, hid ▸ hks.verdictOf_eq hmem, hhold⟩

/-- What is written about a reading whose verification is locked stays right. -/
theorem VerdictWrite.rely (hK : VerdictTerms K) (h : VerdictWrite db v w)
    (hhd : .verification v.readingId ∈ l.held) (hr : K.rely l db db') :
    VerdictWrite db' v w := by
  rcases h with hno | ⟨hfi, hhold⟩
  · exact .insert ((hK.verdict hr _ hhd).trans hno)
  · exact .replace ((hK.verdict hr _ hhd).trans hfi) hhold

theorem safe_upsertVerificationClearingHold (hK : VerdictTerms K) {I : ShiftDb → Prop}
    (hI : Stable K I) {next : Verification → Txn env} (h : I db)
    (hnx : ∀ v w db' n', Keys db' → I db' → input.row = .ok v → VerdictWrite db' v w →
      K.Safe (next v) (insert (.verification input.readingId) held) [w] db' n') :
    K.Safe (upsertVerificationClearingHold env input next) held [] db n := by
  intro db1 n1 _ hr1 _ _
  have h1 := hI.keep rfl hr1 h
  refine safe_query fun db2 n2 _ hr2 hinv2 _ ws r hout ↦ ?_
  have h2 := hI.keep rfl hr2 h1
  obtain ⟨e, -, rfl, rfl⟩ | ⟨v, hins, rfl, rfl⟩ := logged_eq hout
  · cases e with
    | numericOverflow | checkViolation | foreignKeyViolation => trivial
    | uniqueViolation =>
      refine safe_reply rfl fun db3 n3 hr3 _ (found : Bool) _ ↦ ?_
      have h3 := hI.keep rfl hr3 h2
      rcases found with _ | _
      · trivial
      refine safe_query fun db4 n4 _ hr4 hinv4 _ ws r hout ↦ ?_
      obtain ⟨e, -, rfl, rfl⟩ | ⟨-, rfl, rfl⟩ | ⟨v, hrep, rfl, rfl⟩ := loggedRow_eq hout
      · trivial
      · trivial
      · obtain ⟨hrow, hold, hfi, hhold⟩ := replaceHold_eq_ok (hK.keys hinv4) hrep
        have hid := (VerificationInput.row_eq_ok hrow).1
        exact hnx v _ db4 _ (hK.keys hinv4) (hI.keep rfl hr4 h3) hrow (.replace (hid ▸ hfi) hhold)
  · obtain ⟨hrow, hno⟩ := insertVerification_eq_ok hins
    have hid := (VerificationInput.row_eq_ok hrow).1
    exact hnx v _ db2 _ (hK.keys hinv2) h2 hrow (.insert (hid ▸ hno))

theorem verdict_row (hks : Keys db) (hm : m ∈ db.readings)
    (h : (m.verdict status reason actor).row = .ok v) :
    v.readingId = m.id ∧ v.status = status ∧ v.Keeps db := by
  obtain ⟨hid, hsh, hst, hfin⟩ := VerificationInput.row_eq_ok h
  refine ⟨hid, hst, fun m' hm' hid' ↦ ?_⟩
  rw [inj_on_of_nodup_map hks.readings hm' hm (hid'.trans hid)]
  exact ⟨hsh, fun _ ↦ store_units (div_mul_cancel₀ _ (by norm_num)) hfin⟩

theorem correction_row {reason : String} (hks : Keys db) (hm : m ∈ db.readings)
    (h : (m.correction verified reason actor).row = .ok v) :
    v.readingId = m.id ∧ v.shiftId = m.shiftId ∧ v.status = .corrected ∧
      store 14 3 verified = some v.finalApprovedReading ∧ v.Keeps db := by
  obtain ⟨hid, hsh, hst, hfin⟩ := VerificationInput.row_eq_ok h
  refine ⟨hid, hsh, hst, hfin, fun m' hm' hid' ↦ ?_⟩
  rw [inj_on_of_nodup_map hks.readings hm' hm (hid'.trans hid)]
  exact ⟨hsh, fun hne ↦ absurd hst hne⟩

section Verdict

variable (hK : VerdictTerms K) {I : Shift → ShiftDb → Prop}
  (hread : ∀ {s db n}, K.inv db n → s ∈ db.shifts → I s db) (hI : ∀ s, Stable K (I s))

include hK hread hI

/-- Approving, rejecting and flagging: they commit one verdict on the closing as it was
submitted. -/
theorem safe_recordVerdict (hcom : ∀ s m v w db' n', Keys db' → I s db' → ClosingOf db' s.id m →
      (m.verdict status reason actor).row = .ok v → VerdictWrite db' v w →
      K.Safe (.commit (.verification v)) (insert (.verification m.id) ∅) [w] db' n') :
    K.Safe (loadClosingForVerdict env actor shift readingId verb fun _ m ↦
      recordReadingVerdict env actor m status reason) ∅ [] db n := by
  refine safe_loadClosingForVerdict hread hI fun s m db1 n1 hs hm _ _ ↦ ?_
  refine safe_upsertVerificationClearingHold hK ((hI s).closing hK s.id m) ⟨hs, hm⟩
    fun v w db2 n2 hks h2 hrow hw ↦ ?_
  exact hcom s m v w db2 n2 hks h2.1 h2.2 hrow hw

end Verdict

/-! ## Batches -/

/-- The verdicts of a batch so far: approvals of readings that have no verification yet. -/
structure Batch (held : Set LockKey) (vs : List Verification) (db : ShiftDb) : Prop where
  key : (vs.map (·.readingId)).Nodup
  fresh : ∀ v ∈ vs, verdictOf db v.readingId = none
  locked : ∀ v ∈ vs, .verification v.readingId ∈ held
  approved : ∀ v ∈ vs, v.status = .approved
  keeps : ∀ v ∈ vs, v.Keeps db

variable {vs : List Verification}

theorem Batch.rely (hK : VerdictTerms K) (h : Batch held vs db) (hl : held ⊆ l.held)
    (hr : K.rely l db db') : Batch held vs db' where
  key := h.key
  fresh v hv := (hK.verdict hr _ (hl (h.locked v hv))).trans (h.fresh v hv)
  locked := h.locked
  approved := h.approved
  keeps v hv m hm := h.keeps v hv m (hK.readings hr ▸ hm)

variable (env) in
theorem replay_insertVerifications (vs : List Verification) (db : ShiftDb) :
    replay (S := schema env) db (vs.map .insertVerification)
      = { db with verifications := db.verifications ++ vs } := by
  induction vs generalizing db with
  | nil => rw [map_nil, replay_nil, append_nil]
  | cons v vs ih =>
    rw [map_cons, replay_cons, ih]
    simp [ShiftDb.apply]

theorem Batch.snoc (h : Batch held vs db) (hks : Keys db) (hm : m ∈ db.readings)
    (hv : insertVerification { db with verifications := db.verifications ++ vs }
      (m.verdict .approved none actor) = .ok v) :
    Batch (insert (.verification m.id) held) (vs ++ [v]) db := by
  obtain ⟨hrow, hno⟩ := insertVerification_eq_ok hv
  obtain ⟨hid, hst, hkp⟩ := verdict_row hks hm hrow
  have hfr : ∀ v' ∈ db.verifications ++ vs, v'.readingId ≠ m.id := verdictOf_eq_none.mp hno
  have hall : ∀ {P : Verification → Prop}, (∀ v' ∈ vs, P v') → P v → ∀ v' ∈ vs ++ [v], P v' := by
    intro P hvs hP v' hv'
    rcases mem_append.mp hv' with hv' | hv'
    · exact hvs v' hv'
    · rwa [mem_singleton.mp hv']
  refine ⟨?_, hall h.fresh ?_, hall (fun v' hv' ↦ ?_) ?_, hall h.approved hst,
    hall h.keeps hkp⟩
  · rw [map_append]
    refine h.key.append (nodup_singleton _) fun r hr hr' ↦ ?_
    obtain ⟨v', hv', rfl⟩ := mem_map.mp hr
    exact hfr v' (mem_append_right _ hv') ((mem_singleton.mp hr').trans hid)
  · rw [hid]
    exact verdictOf_eq_none.mpr fun v' hv' ↦ hfr v' (mem_append_left _ hv')
  · exact mem_insert_of_mem _ (h.locked v' hv')
  · rw [hid]
    exact mem_insert _ _

def OnClosings (db : ShiftDb) (shift : Uuid) (vs : List Verification) : Prop :=
  ∀ v ∈ vs, ∃ m, ClosingOf db shift m ∧ m.id = v.readingId

theorem OnClosings.rely (hK : VerdictTerms K) (h : OnClosings db shift vs)
    (hr : K.rely l db db') : OnClosings db' shift vs := by
  intro v hv
  obtain ⟨m, hm, hid⟩ := h v hv
  exact ⟨m, hK.closingOf hr hm, hid⟩

theorem safe_verifyPending (hK : VerdictTerms K) {pending : List MeterReading} {count : ℕ}
    (h : Batch held vs db) (hvs : OnClosings db shift vs)
    (hpnd : ∀ m ∈ pending, ClosingOf db shift m)
    (hcom : ∀ held' vs' count' db' n', Batch held' vs' db' → OnClosings db' shift vs' →
      K.Safe (.commit (.verified count')) held' (vs'.map .insertVerification) db' n') :
    K.Safe (verifyPending env actor pending count) held (vs.map .insertVerification) db n := by
  induction pending generalizing count vs held db n with
  | nil => exact hcom _ _ _ _ _ h hvs
  | cons m pending ih =>
    intro db1 n1 _ hr1 _ _
    refine safe_query fun db2 n2 _ hr2 hinv2 _ ws r hout ↦ ?_
    have h2 : Batch held vs db2 :=
      (h.rely hK subset_rfl hr1).rely hK (subset_insert _ _) hr2
    have hmem : ∀ m' ∈ m :: pending, ClosingOf db2 shift m' := fun m' hm' ↦
      hK.closingOf hr2 (hK.closingOf hr1 (hpnd m' hm'))
    have hvw := replay_insertVerifications env vs db2
    rw [hvw] at hout
    obtain ⟨e, -, rfl, rfl⟩ | ⟨v, hins, rfl, rfl⟩ := logged_eq hout
    · trivial
    have hm := hmem m mem_cons_self
    have hvs2 : OnClosings db2 shift (vs ++ [v]) := by
      intro v' hv'
      rcases mem_snoc.mp hv' with hv' | rfl
      · exact (hvs.rely hK hr1).rely hK hr2 v' hv'
      · exact ⟨m, hm, (VerificationInput.row_eq_ok (insertVerification_eq_ok hins).1).1.symm⟩
    have hnx : K.Safe (verifyPending env actor pending (count + 1))
        (insert (.verification m.id) held) ((vs ++ [v]).map .insertVerification) db2 (n2 + 1) :=
      ih (h2.snoc (hK.keys hinv2) hm.1 hins) hvs2 fun m' hm' ↦ hmem m' (mem_cons_of_mem _ hm')
    rwa [map_append] at hnx

theorem safe_handleVerifyShiftReadings (hK : VerdictTerms K)
    (hcom : ∀ held' vs count db' n', Batch held' vs db' → OnClosings db' shift vs →
      K.Safe (.commit (.verified count)) held' (vs.map .insertVerification) db' n') :
    K.Safe (handleVerifyShiftReadings env actor shift) ∅ [] db n := by
  unfold handleVerifyShiftReadings shiftForVerification
  refine safe_shiftForWrite fun s db1 n1 _ _ hid _ ↦ ?_
  subst hid
  refine safe_reply rfl
    fun db2 n2 _ _ (pending : List MeterReading) hpnd ↦ ?_
  split
  · trivial
  have hbat : Batch ∅ [] db2 := ⟨nodup_nil, by simp, by simp, by simp, by simp⟩
  refine safe_verifyPending hK hbat (by simp [OnClosings]) (fun m hm ↦ ?_) hcom
  rw [← hpnd] at hm
  obtain ⟨hmem, hm⟩ := mem_filter.mp hm
  obtain ⟨hsh, hty, hact, -⟩ := of_decide_eq_true hm
  exact ⟨hmem, hsh, rfl, hty, hact⟩

/-- The line of the nozzle is rewritten under its lock, if there is one. -/
theorem safe_recomputeRow (hK : VerdictTerms K) {I : ShiftDb → Prop} (hI : Stable K I)
    {nozzle : Uuid} {next : Txn env} (h : I db) (hw : VerdictWrite db v w)
    (hhd : .verification v.readingId ∈ held)
    (hpla : ∀ held' db' n', held ⊆ held' → Keys db' → I db' → VerdictWrite db' v w →
      findLine db' shift nozzle = none → K.Safe next held' [w] db' n')
    (hln : ∀ l l' db' n', Keys db' → I db' → VerdictWrite db' v w →
      findLine db' shift nozzle = some l → l.recompute verified = some l' → 0 ≤ l'.litresSold →
      K.cond ⟨insert (.closeLine shift nozzle) held, [w],
        .query (.recomputeCloseLine shift nozzle verified) (answerLine env next)⟩ db' n' →
      K.Safe next (insert (.closeLine shift nozzle) held) [w, .setLine l'] db' (n' + 1)) :
    K.Safe (recomputeRow env shift nozzle verified next) held [w] db n := by
  -- a verdict leaves the lines alone
  have hlns : ∀ db1, VerdictWrite db1 v w → Keys db1 →
      findLine (db1.apply w) shift nozzle = findLine db1 shift nozzle := by
    intro db1 hw1 hks1
    rw [findLine, (hw1.judged hks1).lines, findLine]
  refine safe_reply rfl fun db1 n1 hr1 hinv1 (found : Bool) hfd ↦ ?_
  have hw1 := hw.rely hK hhd hr1
  have h1 := hI.keep rfl hr1 h
  rcases found with _ | _
  · refine hpla held db1 _ subset_rfl (hK.keys hinv1) h1 hw1 ?_
    have hno : (findLine (db1.apply w) shift nozzle).isSome = false := hfd
    rw [hlns db1 hw1 (hK.keys hinv1)] at hno
    simpa using hno
  intro db2 n2 _ hr2 hinv2 _
  refine safe_query fun db3 n3 _ hr3 hinv3 hc ws r hout ↦ ?_
  have hw3 := (hw1.rely hK hhd hr2).rely hK (mem_insert_of_mem _ hhd) hr3
  have h3 := hI.keep rfl hr3 (hI.keep rfl hr2 h1)
  have hks3 := hK.keys hinv3
  have hout : loggedRow .setLine (recomputeCloseLine (db3.apply w) shift nozzle verified)
    = (ws, r) := hout
  rw [recomputeCloseLine, hlns db3 hw3 hks3] at hout
  rcases hfi : findLine db3 shift nozzle with _ | l <;> rw [hfi] at hout <;>
    dsimp only at hout
  · cases hout
    exact hpla _ db3 _ (subset_insert _ _) hks3 h3 hw3 hfi
  rcases hrec : l.recompute verified with _ | l' <;> rw [hrec] at hout <;> cases hout
  · trivial
  · change K.Safe (if l'.litresSold < 0 then _ else _) _ _ _ _
    split
    · trivial
    next hlit =>
      exact hln l l' db3 n3 hks3 h3 hw3 hfi hrec (not_lt.mp hlit) hc

section Correct

variable (hK : VerdictTerms K) {I : Shift → ShiftDb → Prop}
  (hread : ∀ {s db n}, K.inv db n → s ∈ db.shifts → I s db) (hI : ∀ s, Stable K (I s))

include hK hread hI

/-- A correction commits its verdict, with the rewritten line of the nozzle if it has seen the shift
closed and there is one. -/
theorem safe_handleVerifyCorrectReading {reason : String}
    (hpla : ∀ s m v w held db' n', s.id = shift → Keys db' → I s db' → ClosingOf db' s.id m →
      (m.correction verified reason actor).row = .ok v → VerdictWrite db' v w →
      .verification m.id ∈ held → s.status = .opened ∨ findLine db' s.id m.nozzleId = none →
      K.Safe (.commit (.verification v)) held [w] db' n')
    (hln : ∀ s m v w l l' held db' n', s.id = shift → s.status = .closed → Keys db' → I s db' →
      ClosingOf db' s.id m → (m.correction verified reason actor).row = .ok v →
      VerdictWrite db' v w → .verification m.id ∈ held → .closeLine s.id m.nozzleId ∈ held →
      findLine db' s.id m.nozzleId = some l → l.recompute verified = some l' → 0 ≤ l'.litresSold →
      (∃ held next n, K.cond ⟨held, [w],
        .query (.recomputeCloseLine s.id m.nozzleId verified) next⟩ db' n) →
      K.Safe (.commit (.verification v)) held [w, .setLine l'] db' n') :
    K.Safe (handleVerifyCorrectReading env actor shift readingId verified reason) ∅ [] db n := by
  unfold handleVerifyCorrectReading
  split
  · trivial
  split
  · trivial
  refine safe_loadClosingForVerdict hread hI fun s m db1 n1 hs1 hm1 hid hst ↦
    safe_reply rfl fun db2 n2 hr2 _ (nozzle : Option Nozzle) _ ↦ ?_
  have hstb := (hI s).closing hK s.id m
  have h2 := hstb.keep rfl hr2 ⟨hs1, hm1⟩
  rcases nozzle with _ | z
  · trivial
  dsimp only
  split
  · refine safe_reply rfl
      fun db3 n3 hr3 _ (opening : Option MeterReading) _ ↦ ?_
    have hvd : K.Safe (upsertVerificationClearingHold env
        (m.correction verified reason actor) fun v ↦
          if s.status = .closed then
            recomputeRow env s.id m.nozzleId verified (.commit (.verification v))
          else .commit (.verification v)) ∅ [] db3 (n3 + 1) := by
      refine safe_upsertVerificationClearingHold hK hstb (hstb.keep rfl hr3 h2)
        fun v w db4 n4 hks h4 hrow hw ↦ ?_
      have hv : v.readingId = m.id := (VerificationInput.row_eq_ok hrow).1
      have hhd : LockKey.verification m.id ∈ insert (LockKey.verification m.id) ∅ :=
        mem_insert _ _
      split
      next hcl =>
        refine safe_recomputeRow hK hstb h4 hw (hv ▸ hhd)
          (fun held' db' n' hsub hks' h' hw' hno ↦ ?_)
          fun l l' db' n' hks' h' hw' hfi hrec hlit hc ↦ ?_
        · exact hpla s m v w held' db' n' hid hks' h'.1 h'.2 hrow hw' (hsub hhd) (.inr hno)
        · exact hln s m v w l l' _ db' _ hid hcl hks' h'.1 h'.2 hrow hw'
            (mem_insert_of_mem _ hhd) (mem_insert _ _) hfi hrec hlit ⟨_, _, _, hc⟩
      next hcl =>
        refine hpla s m v w _ db4 n4 hid hks h4.1 h4.2 hrow hw hhd (.inl ?_)
        rcases hs : s.status with _ | _ | _
        · rfl
        · exact absurd hs hcl
        · exact absurd hs hst
    rcases opening with _ | opening
    · exact hvd
    · dsimp only
      split
      · trivial
      · exact hvd
  · trivial

end Correct

end Safe

end FuelGrid.Forecourt
