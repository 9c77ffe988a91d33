import FuelGrid.Forecourt.FinalVerdicts
import FuelGrid.Station.Safety

/-!
# A contract for approved shifts

A shift is approved behind three gates: no exception on it is open, its closings are verified, and
its cash is confirmed. The approval looks at them under the lock on the shift.

This module states the law of an approved shift, what never changes about it, the contract between
the requests and what their commits do; the requests are executed under it in `ApprovalGates`.
-/

namespace FuelGrid.Station

open Sql Forecourt

variable {env : StationEnv} {l : Local (schema env)} {s : Shift}

def Resolved (db : StationDb) (shift : Uuid) : Prop :=
  ∀ e ∈ db.exceptions, e.shiftId = shift → e.status ≠ .opened
  deriving Decidable

/-- The cash of the shift has been confirmed, if it was submitted. -/
def Receipted (db : StationDb) (shift : Uuid) : Prop :=
  ∀ c ∈ db.submissions, c.shiftId = shift → ∃ r ∈ db.receipts,
    r.cashSubmissionId = c.id ∧ (r.status = .received ∨ r.status = .approvedWithDifference)
  deriving Decidable

/-- The gates of an approved shift are passed. -/
def ApprovalLaw (db : StationDb) : Prop :=
  ∀ s ∈ db.forecourt.shifts, s.status = .approved →
    Resolved db s.id ∧ Verified db.forecourt s.id ∧ Receipted db s.id
  deriving Decidable

/-- An approved shift stays approved, with the same verifications, close lines and receipts. -/
def ApprovedFrozen (db db' : StationDb) : Prop :=
  ∀ shift, ApprovedIn db.forecourt shift → ApprovedIn db'.forecourt shift ∧
    SameRecords db.forecourt db'.forecourt shift ∧
    db'.receipts.filter (·.shiftId = shift) = db.receipts.filter (·.shiftId = shift)

theorem ApprovedFrozen.refl (db : StationDb) : ApprovedFrozen db db :=
  fun _ h ↦ ⟨h, ⟨rfl, rfl⟩, rfl⟩

theorem ApprovedFrozen.trans {db1 db2 db3 : StationDb} (h : ApprovedFrozen db1 db2)
    (h' : ApprovedFrozen db2 db3) : ApprovedFrozen db1 db3 := by
  intro shift happ
  obtain ⟨happ2, hsm2, hrecs2⟩ := h shift happ
  obtain ⟨happ3, hsm3, hrecs3⟩ := h' shift happ2
  exact ⟨happ3, hsm2.trans hsm3, hrecs3.trans hrecs2⟩

/-! ## The contract

The requests on cash lock the shift in shared mode and find it closed, so that they stay out from
then on; verdicts do not lock it, but a closing whose verdict is final gets no other one
(`FinalVerdicts`). -/

def Write.submissionIds : Write → List Uuid
  | .insertSubmission c => [c.id]
  | _ => []

/-- No submission has this id yet, and no receipt refers to it. -/
def FreshSubmission (db : StationDb) (k : Uuid) : Prop :=
  (∀ c ∈ db.submissions, c.id ≠ k) ∧ ∀ r ∈ db.receipts, r.cashSubmissionId ≠ k

/-- What a transaction relies on. The shift it has locked keeps its row; if it is locked
exclusively, the gates on exceptions and cash stay passed. Final verdicts and submissions stay
anyway. -/
structure GateRely (l : Local (schema env)) (db db' : StationDb) : Prop where
  shift : ∀ id s, .forecourt (.shift id) ∈ l.held ∨ .shiftShare id ∈ l.held →
    db.forecourt.shifts.find? (·.id = id) = some s → db'.forecourt.shifts.find? (·.id = id) = some s
  readings : db'.forecourt.readings = db.forecourt.readings
  verdict : ∀ r, .forecourt (.verification r) ∈ l.held →
    verdictOf db'.forecourt r = verdictOf db.forecourt r
  verified : ∀ id, Verified db.forecourt id → Verified db'.forecourt id
  submissions : ∀ c ∈ db.submissions, c ∈ db'.submissions
  resolved : ∀ id, .forecourt (.shift id) ∈ l.held → Resolved db id → Resolved db' id
  receipted : ∀ id, .forecourt (.shift id) ∈ l.held → Receipted db id → Receipted db' id
  fresh : ∀ w ∈ l.log, ∀ k ∈ w.submissionIds, FreshSubmission db k → FreshSubmission db' k

/-- What a transaction promises about its commit. -/
structure GateGuar (held : Set LockKey) (log : List Write) (db db' : StationDb) : Prop where
  shift : ∀ id s, .forecourt (.shift id) ∉ held → db.forecourt.shifts.find? (·.id = id) = some s →
    db'.forecourt.shifts.find? (·.id = id) = some s
  readings : db'.forecourt.readings = db.forecourt.readings
  verdict : ∀ r, .forecourt (.verification r) ∉ held →
    verdictOf db'.forecourt r = verdictOf db.forecourt r
  verified : ∀ id, Verified db.forecourt id → Verified db'.forecourt id
  submissions : ∀ c ∈ db.submissions, c ∈ db'.submissions
  resolved : ∀ id, .shiftShare id ∉ held → Resolved db id → Resolved db' id
  receipted : ∀ id, .shiftShare id ∉ held → Receipted db id → Receipted db' id
  fresh : ∀ k, (∀ w ∈ log, k ∉ w.submissionIds) → FreshSubmission db k → FreshSubmission db' k

/-- Keys hold, a receipt is on the shift of its submission, and approved shifts passed the gates. -/
structure GateInv (db : StationDb) (n : ℕ) : Prop where
  forecourt : VerdictInv db.forecourt
  submissions : (db.submissions.map (·.id)).Nodup
  tied : ∀ r ∈ db.receipts, ∀ c ∈ db.submissions, r.cashSubmissionId = c.id → r.shiftId = c.shiftId
  drawn : ∀ k, n ≤ k → FreshSubmission db k
  law : ∀ id, ApprovedIn db.forecourt id → Resolved db id ∧ Receipted db id

theorem GateInv.tick {db : StationDb} {n : ℕ} (h : GateInv db n) : GateInv db (n + 1) :=
  { h with drawn := fun k hk ↦ h.drawn k (Nat.le_of_succ_le hk) }

theorem GateRely.trans {db1 db2 db3 : StationDb} (h : GateRely l db1 db2)
    (h' : GateRely l db2 db3) : GateRely l db1 db3 where
  shift id s hhd hs := h'.shift id s hhd (h.shift id s hhd hs)
  readings := h'.readings.trans h.readings
  verdict r hhd := (h'.verdict r hhd).trans (h.verdict r hhd)
  verified id hver := h'.verified id (h.verified id hver)
  submissions c hc := h'.submissions c (h.submissions c hc)
  resolved id hhd hres := h'.resolved id hhd (h.resolved id hhd hres)
  receipted id hhd hrec := h'.receipted id hhd (h.receipted id hhd hrec)
  fresh w hw k hk hfr := h'.fresh w hw k hk (h.fresh w hw k hk hfr)

variable (env) in
/-- The terms between the requests around the approval of a shift. -/
def gateContract : Contract (schema env) where
  inv := GateInv
  rely := GateRely
  cond _ _ _ := True
  guar l db _ := GateGuar l.held l.log db (replay (S := schema env) db l.log)
  post _ db log := ApprovedFrozen db (replay (S := schema env) db log)
  inv_tick := .tick
  rely_refl _ _ := ⟨fun _ _ _ h ↦ h, rfl, fun _ _ ↦ rfl, fun _ h ↦ h, fun _ h ↦ h, fun _ _ h ↦ h,
    fun _ _ h ↦ h, fun _ _ _ _ h ↦ h⟩
  rely_trans := .trans

theorem drawsStamp_submissionIds : DrawsStamp (S := schema env) Write.submissionIds := by
  intro q committed view n w hw k hk
  have hgen := generated_of_exec hw
  rcases w with _ | _ | _ | _ | c | _ | _ | _ | _
  · cases hk
  · cases hk
  · cases hk
  · cases hk
  · rw [mem_singleton.mp hk]
    exact hgen
  all_goals cases hk

theorem gateContract_suits {T : Type} :
    Contract.SuitsEach (fun _ : T ↦ gateContract env) GateInv
      (fun s _ ↦ True ∧ s.Exclusive ∧ s.Distinct Write.submissionIds) where
  inv _ _ _ := .rfl
  cond _ _ := trivial
  compat {s t a u p} hC _ _ hguar hne _ := by
    obtain ⟨-, hexcl, hdis⟩ := hC
    have hsha : ∀ id, .forecourt (.shift id) ∈ s.held u → .shiftShare id ∉ s.held t :=
      fun id hu ht ↦ hne (hexcl.eq_of_held rfl rfl ht hu).symm
    refine ⟨fun id x hhd ↦ hguar.shift id x fun ht ↦ ?_, hguar.readings,
      fun r hu ↦ hguar.verdict r fun ht ↦ hne (eq_of_held rfl hu ht), hguar.verified,
      hguar.submissions, fun id hu ↦ hguar.resolved id (hsha id hu),
      fun id hu ↦ hguar.receipted id (hsha id hu),
      fun w hw k hk ↦ hguar.fresh k fun w' hw' hk' ↦ hdis.apart u t hne w hw w' hw' k hk hk'⟩
    rcases hhd with hu | hu
    · exact hne (eq_of_held rfl hu ht)
    · exact hne (hexcl.eq_of_held rfl rfl hu ht)

/-! ## What the commits do

Requests on cash and exceptions leave the forecourt as it is, and verdicts leave the rest. -/

section Commit

variable {held : Set LockKey} {log : List Write} {db db' : StationDb} {n : ℕ} {c : CashSubmission}
  {id k : Uuid} {r : CollectionReceipt}

/-- The promise of a request on cash or exceptions: the forecourt is the same. -/
theorem gateGuar_of_forecourt (hfc : db'.forecourt = db.forecourt)
    (hsub : ∀ c ∈ db.submissions, c ∈ db'.submissions)
    (hres : ∀ id, .shiftShare id ∉ held → Resolved db id → Resolved db' id)
    (hrec : ∀ id, .shiftShare id ∉ held → Receipted db id → Receipted db' id)
    (hfr : ∀ k, (∀ w ∈ log, k ∉ w.submissionIds) → FreshSubmission db k → FreshSubmission db' k) :
    GateGuar held log db db' where
  shift _ _ _ hs := by rwa [hfc]
  readings := by rw [hfc]
  verdict _ _ := by rw [hfc]
  verified _ hver := by rwa [hfc]
  submissions := hsub
  resolved := hres
  receipted := hrec
  fresh := hfr

/-- Verdicts change the forecourt only, and nothing about approved shifts. -/
theorem gate_verdict {x : ShiftDb} (log : List Write) (hinv : GateInv db n)
    (h : VerdictGuar (Set.preimage LockKey.forecourt held) db.forecourt x) (hx : VerdictInv x) :
    GateGuar held log db { db with forecourt := x } ∧ GateInv { db with forecourt := x } n ∧
      ApprovedFrozen db { db with forecourt := x } := by
  have happ : ∀ id, ApprovedIn x id ↔ ApprovedIn db.forecourt id := fun id ↦ by
    rw [ApprovedIn, h.shifts, ApprovedIn]
  refine ⟨⟨fun id s _ hs ↦ ?_, h.readings, fun r hr ↦ h.verdict r hr, fun id ↦ h.verified,
    fun _ hc ↦ hc, fun _ _ hres ↦ hres, fun _ _ hrec ↦ hrec, fun _ _ hfr ↦ hfr⟩,
    ⟨hx, hinv.submissions, hinv.tied, hinv.drawn, fun id hid ↦ ?_⟩, fun id hid ↦ ?_⟩
  · dsimp only
    rwa [h.shifts]
  · exact hinv.law id ((happ id).mp hid)
  · exact ⟨(happ id).mpr hid, h.frozen id hid, rfl⟩

/-- What a submission adds: its row, and exceptions on its shift. -/
structure Submitted (db db' : StationDb) (c : CashSubmission) : Prop where
  forecourt : db'.forecourt = db.forecourt
  submissions : db'.submissions = db.submissions ++ [c]
  receipts : db'.receipts = db.receipts
  exceptions : ∀ e ∈ db'.exceptions, e ∈ db.exceptions ∨ e.shiftId = c.shiftId

theorem Submitted.resolved (h : Submitted db db' c) (hne : c.shiftId ≠ id) (hres : Resolved db id) :
    Resolved db' id := by
  intro e he hid
  rcases h.exceptions e he with he | he
  · exact hres e he hid
  · exact absurd (he.symm.trans hid) hne

theorem Submitted.receipted (h : Submitted db db' c) (hne : c.shiftId ≠ id)
    (hrec : Receipted db id) : Receipted db' id := by
  intro c' hc' hid
  rw [h.submissions] at hc'
  rw [h.receipts]
  rcases mem_append.mp hc' with hc' | hc'
  · exact hrec c' hc' hid
  · rw [mem_singleton.mp hc'] at hid
    exact absurd hid hne

theorem Submitted.fresh (h : Submitted db db' c) (hne : c.id ≠ k) (hfr : FreshSubmission db k) :
    FreshSubmission db' k := by
  refine ⟨fun c' hc' ↦ ?_, h.receipts ▸ hfr.2⟩
  rw [h.submissions] at hc'
  rcases mem_append.mp hc' with hc' | hc'
  · exact hfr.1 c' hc'
  · rwa [mem_singleton.mp hc']

theorem Submitted.gate (h : Submitted db db' c) (hinv : GateInv db n)
    (hhd : .shiftShare c.shiftId ∈ held) (hnot : ¬ApprovedIn db.forecourt c.shiftId)
    (hfr : FreshSubmission db c.id) (hlog : ∃ w ∈ log, c.id ∈ w.submissionIds) (hn : c.id < n) :
    GateGuar held log db db' ∧ GateInv db' n ∧ ApprovedFrozen db db' := by
  have hoth : ∀ id, ApprovedIn db.forecourt id → c.shiftId ≠ id := by
    rintro id hid rfl
    exact hnot hid
  have hsha : ∀ id, .shiftShare id ∉ held → c.shiftId ≠ id := by
    rintro id hid rfl
    exact hid hhd
  refine ⟨gateGuar_of_forecourt h.forecourt (fun c' hc' ↦ ?_)
    (fun id hid ↦ h.resolved (hsha id hid))
      (fun id hid ↦ h.receipted (hsha id hid)) fun k hk ↦ h.fresh ?_,
    ⟨h.forecourt ▸ hinv.forecourt, ?_, fun r hr c' hc' hid ↦ ?_,
      fun k hk ↦ h.fresh ?_ (hinv.drawn k hk),
      fun id hid ↦ ?_⟩, fun id hid ↦ ?_⟩
  · rw [h.submissions]
    exact mem_append_left _ hc'
  · rintro rfl
    obtain ⟨w, hw, hid⟩ := hlog
    exact hk w hw hid
  · rw [h.submissions]
    exact nodup_key_snoc hinv.submissions hfr.1
  · rw [h.receipts] at hr
    rw [h.submissions] at hc'
    rcases mem_append.mp hc' with hc' | hc'
    · exact hinv.tied r hr c' hc' hid
    · rw [mem_singleton.mp hc'] at hid
      exact absurd hid (hfr.2 r hr)
  · exact (hn.trans_le hk).ne
  · rw [h.forecourt] at hid
    obtain ⟨hres, hrec⟩ := hinv.law id hid
    exact ⟨h.resolved (hoth id hid) hres, h.receipted (hoth id hid) hrec⟩
  · refine ⟨h.forecourt ▸ hid, ?_, by rw [h.receipts]⟩
    rw [h.forecourt]
    exact ⟨rfl, rfl⟩

/-- What a confirmation writes: the receipt of a submission, on its shift. -/
structure Confirmed (db db' : StationDb) (r : CollectionReceipt) (c : CashSubmission) : Prop where
  mem : c ∈ db.submissions
  submission : r.cashSubmissionId = c.id
  shift : r.shiftId = c.shiftId
  forecourt : db'.forecourt = db.forecourt
  submissions : db'.submissions = db.submissions
  exceptions : db'.exceptions = db.exceptions
  kept : ∀ r' ∈ db.receipts, r'.cashSubmissionId ≠ c.id → r' ∈ db'.receipts
  receipts : ∀ r' ∈ db'.receipts, r' = r ∨ r' ∈ db.receipts
  others : ∀ id, c.shiftId ≠ id →
    db'.receipts.filter (·.shiftId = id) = db.receipts.filter (·.shiftId = id)

theorem ReceiptWrite.confirmed {db0 : StationDb} {w : Write} (hw : ReceiptWrite db0 r w)
    (hinv : GateInv db n) (hc : c ∈ db.submissions) (hid : r.cashSubmissionId = c.id)
    (hsh : r.shiftId = c.shiftId) : Confirmed db (db.apply w) r c := by
  rcases hw with _ | _
  · refine ⟨hc, hid, hsh, rfl, rfl, rfl, fun r' hr' _ ↦ mem_append_left _ hr', fun r' hr' ↦ ?_,
      fun id hne ↦ ?_⟩
    · rcases mem_append.mp hr' with hr' | hr'
      · exact .inr hr'
      · exact .inl (mem_singleton.mp hr')
    · change (db.receipts ++ [r]).filter _ = _
      rw [filter_append, List.filter_singleton, hsh, decide_eq_false hne, cond_false,
        append_nil]
  · refine ⟨hc, hid, hsh, rfl, rfl, rfl, fun r' hr' hne ↦ mem_update_of_ne hr' (hid ▸ hne),
      fun r' hr' ↦ (mem_update hr').imp_right And.left, fun id hne ↦ ?_⟩
    refine filter_update (decide_eq_false (hsh ▸ hne)) fun x hx hx' ↦ decide_eq_false ?_
    -- the replaced receipt is on the shift of its submission, too
    rw [hinv.tied x hx c hc (hx'.trans hid)]
    exact hne

theorem Confirmed.receipted (h : Confirmed db db' r c) (hinv : GateInv db n)
    (hne : c.shiftId ≠ id) (hrec : Receipted db id) : Receipted db' id := by
  intro c' hc' hid
  rw [h.submissions] at hc'
  obtain ⟨r', hr', hsub, hst⟩ := hrec c' hc' hid
  refine ⟨r', h.kept r' hr' fun hsm ↦ hne ?_, hsub, hst⟩
  rw [← hinv.tied r' hr' c h.mem hsm, hinv.tied r' hr' c' hc' hsub]
  exact hid

theorem Confirmed.fresh (h : Confirmed db db' r c) (hfr : FreshSubmission db k) :
    FreshSubmission db' k := by
  refine ⟨h.submissions ▸ hfr.1, fun r' hr' ↦ ?_⟩
  rcases h.receipts r' hr' with rfl | hr'
  · rw [h.submission]
    exact hfr.1 c h.mem
  · exact hfr.2 r' hr'

theorem Confirmed.gate (h : Confirmed db db' r c) (hinv : GateInv db n)
    (hhd : .shiftShare c.shiftId ∈ held) (hnot : ¬ApprovedIn db.forecourt c.shiftId) :
    GateGuar held log db db' ∧ GateInv db' n ∧ ApprovedFrozen db db' := by
  have hoth : ∀ id, ApprovedIn db.forecourt id → c.shiftId ≠ id := by
    rintro id hid rfl
    exact hnot hid
  have hres : ∀ id, Resolved db id → Resolved db' id := fun id hres ↦ by
    rwa [Resolved, h.exceptions]
  refine ⟨gateGuar_of_forecourt h.forecourt (fun c' hc' ↦ ?_) (fun id _ ↦ hres id)
      (fun id hid ↦ h.receipted hinv ?_) fun k _ ↦ h.fresh,
    ⟨h.forecourt ▸ hinv.forecourt, h.submissions ▸ hinv.submissions, fun r' hr' c' hc' hid ↦ ?_,
      fun k hk ↦ h.fresh (hinv.drawn k hk), fun id hid ↦ ?_⟩, fun id hid ↦ ?_⟩
  · rwa [h.submissions]
  · rintro rfl
    exact hid hhd
  · rw [h.submissions] at hc'
    rcases h.receipts r' hr' with rfl | hr'
    · have hsm : c' = c := inj_on_of_nodup_map hinv.submissions hc' h.mem
        (hid.symm.trans h.submission)
      rw [hsm]
      exact h.shift
    · exact hinv.tied r' hr' c' hc' hid
  · rw [h.forecourt] at hid
    obtain ⟨hres', hrec⟩ := hinv.law id hid
    exact ⟨hres id hres', h.receipted hinv (hoth id hid) hrec⟩
  · refine ⟨h.forecourt ▸ hid, ?_, h.others id (hoth id hid)⟩
    rw [h.forecourt]
    exact ⟨rfl, rfl⟩

theorem gate_resolve {e : ShiftException} (hinv : GateInv db n) (he : e.status = .resolved) :
    GateGuar held log db (db.apply (.setException e)) ∧ GateInv (db.apply (.setException e)) n ∧
      ApprovedFrozen db (db.apply (.setException e)) := by
  have hres : ∀ id, Resolved db id → Resolved (db.apply (.setException e)) id := by
    intro id hres x hx hid
    rcases mem_update hx with rfl | ⟨hx, -⟩
    · rw [he]
      nofun
    · exact hres x hx hid
  refine ⟨gateGuar_of_forecourt rfl (fun _ hc ↦ hc) (fun id _ ↦ hres id) (fun _ _ hrec ↦ hrec)
    fun _ _ hfr ↦ hfr, ⟨hinv.forecourt, hinv.submissions, hinv.tied, hinv.drawn,
      fun id hid ↦ ⟨hres id (hinv.law id hid).1, (hinv.law id hid).2⟩⟩,
    fun _ hid ↦ ⟨hid, ⟨rfl, rfl⟩, rfl⟩⟩

theorem gate_approve (hinv : GateInv db n) (hhd : .forecourt (.shift s.id) ∈ held)
    (hres : Resolved db s.id) (hver : Verified db.forecourt s.id) (hrec : Receipted db s.id) :
    GateGuar held log db (db.apply (.forecourt (.setShift (approve s)))) ∧
      GateInv (db.apply (.forecourt (.setShift (approve s)))) n ∧
      ApprovedFrozen db (db.apply (.forecourt (.setShift (approve s)))) := by
  have happ : ∀ id, ApprovedIn (db.forecourt.apply (.setShift (approve s))) id →
      id = s.id ∨ ApprovedIn db.forecourt id := by
    rintro id ⟨x, hx, hid, hx'⟩
    rcases mem_update hx with rfl | ⟨hx, -⟩
    · exact .inl hid.symm
    · exact .inr ⟨x, hx, hid, hx'⟩
  refine ⟨⟨fun id x hfree hx ↦ ?_, rfl, fun _ _ ↦ rfl, fun _ hver ↦ hver, fun _ hc ↦ hc,
    fun _ _ hres ↦ hres, fun _ _ hrec ↦ hrec, fun _ _ hfr ↦ hfr⟩,
    ⟨⟨?_, fun id hid ↦ ?_⟩, hinv.submissions, hinv.tied, hinv.drawn, fun id hid ↦ ?_⟩,
    fun id hid ↦ ?_⟩
  · have hne : id ≠ (approve s).id := by
      rintro rfl
      exact hfree hhd
    exact (find?_update_of_ne hne).trans hx
  · exact hinv.forecourt.keys.setShift (approve s)
  · rcases happ id hid with rfl | hid
    · exact hver
    · exact hinv.forecourt.verified id hid
  · rcases happ id hid with rfl | hid
    · exact ⟨hres, hrec⟩
    · exact hinv.law id hid
  · obtain ⟨x, hx, hid', hx'⟩ := hid
    refine ⟨?_, ⟨rfl, rfl⟩, rfl⟩
    by_cases hsm : x.id = (approve s).id
    · exact ⟨approve s, mem_map.mpr ⟨x, hx, if_pos hsm⟩, hsm.symm.trans hid', rfl⟩
    · exact ⟨x, mem_update_of_ne hx hsm, hid', hx'⟩

end Commit

end FuelGrid.Station
