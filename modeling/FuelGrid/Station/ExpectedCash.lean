import FuelGrid.Forecourt.SettledContract
import FuelGrid.Station.Effects

/-!
# Expected cash of an approved shift

The expected cash of a shift is the sum of its close lines. It is copied into the cash submission
when the cash is submitted, and from there into the collection receipt. The copies agree with the
lines as long as these stay as they are, which a correction of a verified closing does not respect:
it rewrites a line of a closed shift whether or not its cash has been submitted.
-/

namespace FuelGrid.Station

open Sql Forecourt

/-- The submission agrees with the close lines, its variance with its total, and it has a receipt
which agrees with it. -/
structure CashSubmission.Agrees (c : CashSubmission) (db : StationDb) : Prop where
  expected : sumExpected db.forecourt c.shiftId = some c.expectedCash
  variance : c.variance = c.submittedTotal - c.expectedCash
  confirmed : ∃ r ∈ db.receipts, r.cashSubmissionId = c.id
  receipt : ∀ r ∈ db.receipts, r.cashSubmissionId = c.id → r.expectedAmount = c.expectedCash

instance (c : CashSubmission) (db : StationDb) : Decidable (c.Agrees db) :=
  decidable_of_iff
    (sumExpected db.forecourt c.shiftId = some c.expectedCash ∧
      c.variance = c.submittedTotal - c.expectedCash ∧
      (∃ r ∈ db.receipts, r.cashSubmissionId = c.id) ∧
      ∀ r ∈ db.receipts, r.cashSubmissionId = c.id → r.expectedAmount = c.expectedCash)
    ⟨fun ⟨h₁, h₂, h₃, h₄⟩ ↦ ⟨h₁, h₂, h₃, h₄⟩, fun ⟨h₁, h₂, h₃, h₄⟩ ↦ ⟨h₁, h₂, h₃, h₄⟩⟩

/-- The submissions of the approved shifts agree with their close lines. -/
def ExpectedCashLaw (db : StationDb) : Prop :=
  ∀ s ∈ db.forecourt.shifts, s.status = .approved →
    ∀ c ∈ db.submissions, c.shiftId = s.id → c.Agrees db
  deriving Decidable

/-- The condition on a request: no closing is corrected once the cash of its shift is submitted, and
the total of a submission is not half a cent below the expected cash. -/
def Op.KeepsCash (db : StationDb) : Op → Prop
  | .forecourt (.verifyCorrect _ shift _ _ _) _ => getCashSubmission db shift = none
  | .submitCash actor shift req => ∀ t ∈ req.tenders, ∀ e ∈ sumExpected db.forecourt shift,
      ¬CrossesAtTie (-e) ((req.input t shift actor e).total * 10 ^ 2)
  | _ => True

instance (db : StationDb) (op : Op) : Decidable (op.KeepsCash db) := by
  unfold Op.KeepsCash
  split <;> infer_instance

/-! ## What the forecourt keeps -/

/-- What a request of the forecourt does to shifts and lines: it closes shifts at most, and changes
the lines of a shift that is not open only by correcting a closing. -/
structure KeepsLines (op : Forecourt.Op) (db db' : ShiftDb) : Prop where
  ids : db'.shifts.map (·.id) = db.shifts.map (·.id)
  shut : ∀ shift, Shut db shift → Shut db' shift
  approved : ∀ s ∈ db'.shifts, s.status = .approved → s ∈ db.shifts
  lines : ∀ shift, Shut db shift → op.corrects ≠ some shift →
    db'.lines.filter (·.shiftId = shift) = db.lines.filter (·.shiftId = shift)

variable {op : Forecourt.Op} {s : Shift} {shift actor id : Uuid} {e : ℤ}

section Forecourt

variable {env : Env} {db db' : ShiftDb} {n : ℕ}

theorem KeepsLines.refl (hshs : db'.shifts = db.shifts) (hlns : db'.lines = db.lines) :
    KeepsLines op db db' where
  ids := by rw [hshs]
  shut shift h := by rwa [Shut, hshs]
  approved s hs _ := hshs ▸ hs
  lines shift _ _ := by rw [hlns]

private theorem keepsLines_close {lines : List CloseLine} {now : ℤ} (hs : s ∈ db.shifts)
    (hop : s.status = .opened) (hlns : ∀ l ∈ lines, l.shiftId = s.id) :
    KeepsLines op db (replay (S := Forecourt.schema env) db
      (closeLog lines (s.close actor now))) := by
  rw [replay_closeLog]
  refine ⟨map_key_update _ _, fun shift h ↦ ?_, fun x hx happ ↦ ?_, fun shift hsh _ ↦ ?_⟩
  · have hcl : (s.close actor now).status ≠ .opened := nofun
    exact h.setShift hcl
  · rcases mem_setShift hx with rfl | ⟨hx, -⟩
    · cases happ
    · exact hx
  · have hno : lines.filter (·.shiftId = shift) = [] := by
      refine filter_eq_nil_iff.mpr fun l hl ↦ ?_
      rw [decide_eq_true_eq, hlns l hl]
      exact fun hid ↦ hsh s hs hid hop
    rw [filter_append, hno, append_nil]

theorem keepsLines_alone (op : Forecourt.Op) (hown : ofForecourt op) (db : ShiftDb) (n : ℕ) :
    n ≤ ((op.prog env).alone db [] n).2.2 ∧ KeepsLines op db ((op.prog env).alone db [] n).2.1 := by
  have hvd : ∀ (r : ShiftResult) db' n', OnlyVerdicts db db' → n ≤ n' →
      n ≤ n' ∧ KeepsLines op db db' := fun _ _ _ h hn ↦ ⟨hn, .refl h.shifts h.lines⟩
  let R : Except ShiftError ShiftResult × ShiftDb × ℕ → Prop := fun r ↦
    n ≤ r.2.2 ∧ KeepsLines op db r.2.1
  change R ((op.prog env).alone db [] n)
  refine alone_of_yields (fun _ _ hn ↦ ⟨hn, .refl rfl rfl⟩) ?_
  cases op with
  | capture actor shift nozzle type reading =>
    exact yields_handleCaptureMeterReading fun s m n' _ _ _ _ _ hn ↦ ⟨hn, .refl rfl rfl⟩
  | correct actor shift readingId reading =>
    exact yields_handleCorrectMeterReading fun s old m n' _ _ _ _ _ _ _ hn ↦
      ⟨hn, .refl rfl rfl⟩
  | verifyCorrect actor shift readingId verified reason =>
    refine yields_handleVerifyCorrectReading hvd
      fun r nozzle l l' db' n' ⟨hshs, _, hlns⟩ _ hfi hrec _ hn ↦ ⟨hn, ?_⟩
    refine ⟨congrArg _ hshs, fun shift' h ↦ ?_, fun s hs _ ↦ ?_, fun shift' _ hne ↦ ?_⟩
    · exact fun s hs ↦ h s (hshs ▸ hs)
    · exact hshs ▸ hs
    · have hsh : l'.shiftId ≠ shift' := by
        rw [(CloseLine.key_of_recompute hrec).1, (key_of_findLine hfi).1]
        exact fun h ↦ hne (congrArg some h)
      exact (filter_setLine hsh).trans (congrArg _ hlns)
  | approve | reject | flag | verifyShift => exact yields_onlyVerdicts trivial hvd
  | close actor shift now =>
    refine yields_handleCloseShift fun r s lines n' hfi hop hlns hn ↦ ⟨hn, ?_⟩
    obtain ⟨hs, hid⟩ := key_of_find? hfi
    refine keepsLines_close hs hop fun l hl ↦ ?_
    obtain ⟨i, ⟨nozzle, opening, closing, price, -, -, -, rfl⟩, hrow⟩ := hlns l hl
    rw [(CloseLineInput.row_eq_some hrow).1, hid]
  | elsewhere e =>
    rcases e with f | _ | _
    · exact fun hn ↦ ⟨hn, .refl rfl rfl⟩
    · cases hown
    · cases hown

private theorem sumExpected_congr
    (h : db'.lines.filter (·.shiftId = shift) = db.lines.filter (·.shiftId = shift)) :
    sumExpected db' shift = sumExpected db shift := by
  rw [sumExpected, h, sumExpected]

end Forecourt

/-! ## The invariant

The variance of a submission is the total minus the expected cash. Both are stored in cents, but the
insert rounds the difference of the unrounded figures. A tender may have four decimals, and then the
two roundings can differ by a cent: ties are rounded away from zero, so a total of 10.005 becomes
10.01, while 10.005 - 20.00 becomes -10.00 (`CrossesAtTie`). -/

/-- The submissions belong to shifts that are not open and agree with their lines, receipts agree
with their submissions, and the submissions of approved shifts have receipts. -/
structure CashInv (db : StationDb) (n : ℕ) : Prop where
  shifts : (db.forecourt.shifts.map (·.id)).Nodup
  drawn : ∀ s ∈ db.forecourt.shifts, s.id < n
  ids : (db.submissions.map (·.id)).Nodup
  known : ∀ c ∈ db.submissions, c.id < n ∧ c.shiftId < n ∧ Shut db.forecourt c.shiftId
  cash : ∀ c ∈ db.submissions, sumExpected db.forecourt c.shiftId = some c.expectedCash ∧
    c.variance = c.submittedTotal - c.expectedCash
  receiptsDrawn : ∀ r ∈ db.receipts, r.cashSubmissionId < n
  receipts : ∀ r ∈ db.receipts, ∀ c ∈ db.submissions, r.cashSubmissionId = c.id →
    r.expectedAmount = c.expectedCash
  confirmed : ∀ s ∈ db.forecourt.shifts, s.status = .approved → ∀ c ∈ db.submissions,
    c.shiftId = s.id → ∃ r ∈ db.receipts, r.cashSubmissionId = c.id

section Inv

variable {env : StationEnv} {db db' : StationDb} {n n' : ℕ} {c : CashSubmission}

section CashInv

variable (h : CashInv db n)

include h

theorem CashInv.mono (hn : n ≤ n') : CashInv db n' where
  shifts := h.shifts
  drawn s hs := (h.drawn s hs).trans_le hn
  ids := h.ids
  known c hc :=
    let ⟨hid, hsh, hshut⟩ := h.known c hc
    ⟨hid.trans_le hn, hsh.trans_le hn, hshut⟩
  cash := h.cash
  receiptsDrawn r hr := (h.receiptsDrawn r hr).trans_le hn
  receipts := h.receipts
  confirmed := h.confirmed

/-- The invariant reads shifts, lines, submissions and receipts. -/
theorem CashInv.congr (hshs : db'.forecourt.shifts = db.forecourt.shifts)
    (hlns : db'.forecourt.lines = db.forecourt.lines) (hsubs : db'.submissions = db.submissions)
    (hrecs : db'.receipts = db.receipts) : CashInv db' n where
  shifts := hshs ▸ h.shifts
  drawn := hshs ▸ h.drawn
  ids := hsubs ▸ h.ids
  known c hc := by
    obtain ⟨hid, hsh, hshut⟩ := h.known c (hsubs ▸ hc)
    exact ⟨hid, hsh, fun s hs ↦ hshut s (hshs ▸ hs)⟩
  cash c hc := by
    have hsum : sumExpected db'.forecourt c.shiftId = sumExpected db.forecourt c.shiftId :=
      sumExpected_congr (by rw [hlns])
    rw [hsum]
    exact h.cash c (hsubs ▸ hc)
  receiptsDrawn := hrecs ▸ h.receiptsDrawn
  receipts := hrecs ▸ hsubs ▸ h.receipts
  confirmed := by
    rw [hshs, hsubs, hrecs]
    exact h.confirmed

/-- A request of the forecourt that corrects no closing of a submitted shift. -/
theorem CashInv.forecourt {x : ShiftDb} (hx : KeepsLines op db.forecourt x)
    (hop : ∀ shift ∈ op.corrects, getCashSubmission db shift = none) :
    CashInv { db with forecourt := x } n where
  shifts := hx.ids ▸ h.shifts
  drawn s hs := by
    have hmem : s.id ∈ db.forecourt.shifts.map (·.id) := hx.ids ▸ mem_map_of_mem hs
    obtain ⟨s', hs', hid⟩ := mem_map.mp hmem
    exact hid ▸ h.drawn s' hs'
  ids := h.ids
  known c hc :=
    let ⟨hid, hsh, hshut⟩ := h.known c hc
    ⟨hid, hsh, hx.shut _ hshut⟩
  cash c hc := by
    have hfr : op.corrects ≠ some c.shiftId := fun hcor ↦
      find?_key_eq_none.mp (hop _ hcor) c hc rfl
    rw [sumExpected_congr (hx.lines _ (h.known c hc).2.2 hfr)]
    exact h.cash c hc
  receiptsDrawn := h.receiptsDrawn
  receipts := h.receipts
  confirmed s hs happ := h.confirmed s (hx.approved s hs happ) happ

theorem CashInv.insertShift (hn : n ≤ s.id) (hs : s.id < n') (hop : s.status = .opened) :
    CashInv (db.apply (.forecourt (.insertShift s))) n' := by
  have hold := h.mono (hn.trans hs.le)
  have hshs : (db.apply (.forecourt (.insertShift s))).forecourt.shifts
    = db.forecourt.shifts ++ [s] := rfl
  refine ⟨?_, fun x hx ↦ ?_, hold.ids, fun c hc ↦ ?_, hold.cash, hold.receiptsDrawn, hold.receipts,
    fun x hx happ ↦ ?_⟩
  · rw [hshs]
    exact nodup_key_snoc h.shifts fun x hx ↦ ((h.drawn x hx).trans_le hn).ne
  · rw [hshs] at hx
    rcases mem_append.mp hx with hx | hx
    · exact hold.drawn x hx
    · rwa [mem_singleton.mp hx]
  · obtain ⟨hid, hsh, hshut⟩ := hold.known c hc
    refine ⟨hid, hsh, fun x hx hxid ↦ ?_⟩
    rw [hshs] at hx
    rcases mem_snoc.mp hx with hx | rfl
    · exact hshut x hx hxid
    · have hlt := (h.known c hc).2.1.trans_le hn
      exact absurd hxid hlt.ne'
  · rw [hshs] at hx
    rcases mem_snoc.mp hx with hx | rfl
    · exact h.confirmed x hx happ
    · rw [hop] at happ
      cases happ

theorem CashInv.approved (hs : s ∈ db.forecourt.shifts) (hgat : Approvable db s.id) :
    CashInv (db.apply (.forecourt (.setShift (approve s)))) n := by
  have hupd : (db.apply (.forecourt (.setShift (approve s)))).forecourt
    = db.forecourt.apply (.setShift (approve s)) := rfl
  refine ⟨?_, fun x hx ↦ ?_, h.ids, fun c hc ↦ ?_, h.cash, h.receiptsDrawn, h.receipts,
    fun x hx happ c hc hid ↦ ?_⟩
  · exact nodup_key_update h.shifts _
  · rw [hupd] at hx
    rcases mem_setShift hx with rfl | ⟨hx, -⟩
    · exact h.drawn s hs
    · exact h.drawn x hx
  · obtain ⟨hid, hsh, hshut⟩ := h.known c hc
    have hst : (approve s).status ≠ .opened := nofun
    exact ⟨hid, hsh, hshut.setShift hst⟩
  · rw [hupd] at hx
    rcases mem_setShift hx with rfl | ⟨hx, -⟩
    · have hcon := of_decide_eq_false hgat.confirmed
      push Not at hcon
      obtain ⟨r, hr, hrid, -⟩ := hcon c hc hid
      exact ⟨r, hr, hrid⟩
    · exact h.confirmed x hx happ c hc hid

end CashInv

/-- Total and variance of a submission differ by the expected cash, unless rounding moves a tie. -/
theorem variance_of_row {input : CashSubmissionInput} (hrow : input.row id = some c)
    (he : input.expectedCash = (e : ℚ) / 10 ^ 2)
    (htie : ¬CrossesAtTie (-e) (input.total * 10 ^ 2)) :
    c.expectedCash = e ∧ c.variance = c.submittedTotal - c.expectedCash := by
  obtain ⟨-, -, hexp, htot, hvar⟩ := CashSubmissionInput.row_eq_some hrow
  have hcen : c.expectedCash = e := store_units (by rw [he]; ring) hexp
  refine ⟨hcen, ?_⟩
  have hsh : (input.total - input.expectedCash) * 10 ^ 2
      = ((-e : ℤ) : ℚ) + input.total * 10 ^ 2 := by
    rw [he]
    push_cast
    ring
  rw [(store_eq_some hvar).1, hsh, (roundHalfAway_intCast_add_iff _ _).mpr htie,
    (store_eq_some htot).1, hcen]
  ring

theorem CashInv.submit (h : CashInv db n) {t : Tenders} {req : CashSubmissionRequest} {k : ℕ}
    (hk : n ≤ k) (hn : k < n') (hs : s ∈ db.forecourt.shifts) (hcl : s.status = .closed)
    (he : sumExpected db.forecourt s.id = some e)
    (hc : insertCashSubmission db k (req.input t s.id actor e) = .ok c)
    (htie : ¬CrossesAtTie (-e) ((req.input t s.id actor e).total * 10 ^ 2)) :
    CashInv (db.apply (.insertSubmission c)) n' := by
  obtain ⟨hrow, -⟩ := insertCashSubmission_eq_ok hc
  obtain ⟨hid, hsh, -⟩ := CashSubmissionInput.row_eq_some hrow
  obtain ⟨hexp, hvar⟩ := variance_of_row hrow rfl htie
  have hsh : c.shiftId = s.id := hsh
  have hold := h.mono (hk.trans hn.le)
  have hmem : ∀ {x}, x ∈ (db.apply (.insertSubmission c)).submissions →
      x ∈ db.submissions ∨ x = c :=
    fun hx ↦ (mem_append.mp hx).imp_right mem_singleton.mp
  -- the row of a closed shift is the only one with its id
  have hsm : ∀ x ∈ db.forecourt.shifts, x.id = s.id → x = s := fun x hx hxs ↦
    inj_on_of_nodup_map h.shifts hx hs hxs
  refine ⟨h.shifts, hold.drawn, ?_, fun x hx ↦ ?_, fun x hx ↦ ?_, hold.receiptsDrawn,
    fun r hr x hx hrx ↦ ?_, fun y hy happ x hx hxy ↦ ?_⟩
  · refine nodup_key_append h.ids (nodup_singleton _) fun y hy ↦ ?_
    rw [mem_singleton.mp hy, hid]
    exact find?_key_eq_none.mpr fun x hx ↦ ((h.known x hx).1.trans_le hk).ne
  · rcases hmem hx with hx | rfl
    · exact hold.known x hx
    · rw [hid, hsh]
      refine ⟨hn, hold.drawn s hs, fun y hy hyid ↦ ?_⟩
      rw [hsm y hy hyid, hcl]
      nofun
  · rcases hmem hx with hx | rfl
    · exact h.cash x hx
    · exact ⟨by rw [hsh, hexp]; exact he, hvar⟩
  · rcases hmem hx with hx | rfl
    · exact h.receipts r hr x hx hrx
    · have hlt := (h.receiptsDrawn r hr).trans_le hk
      rw [hrx, hid] at hlt
      exact absurd hlt (lt_irrefl k)
  · rcases hmem hx with hx | rfl
    · exact h.confirmed y hy happ x hx hxy
    · rw [hsm y hy (hxy.symm.trans hsh), hcl] at happ
      cases happ

theorem CashInv.confirm (h : CashInv db n) {input : CollectionReceiptInput} {r : CollectionReceipt}
    {w : Write} (hinp : input.Confirms db shift c) (hrow : input.row id = .ok r)
    (hw : ReceiptWrite db r w) : CashInv (db.apply w) n := by
  obtain ⟨hc, -⟩ := key_of_find? hinp.found
  obtain ⟨-, hsub, -, hexp⟩ := CollectionReceiptInput.row_eq_ok hrow
  rw [hinp.submission] at hsub
  have hcen : r.expectedAmount = c.expectedCash :=
    store_units (by rw [hinp.expected]; ring) hexp
  -- every row is an old one or the new one, and every key stays
  have hmem : ∀ x ∈ (db.apply w).receipts, x ∈ db.receipts ∨ x = r := by
    rcases hw with _ | _
    · exact fun x hx ↦ (mem_append.mp hx).imp_right mem_singleton.mp
    · exact fun x hx ↦ (mem_update hx).symm.imp_left And.left
  have hkeep : ∀ x ∈ db.receipts, ∃ y ∈ (db.apply w).receipts,
      y.cashSubmissionId = x.cashSubmissionId := by
    rcases hw with _ | _
    · exact fun x hx ↦ ⟨x, mem_append_left _ hx, rfl⟩
    · intro x hx
      refine ⟨_, mem_map_of_mem hx, ?_⟩
      split
      next heq => exact heq.symm
      · rfl
  have hrest : (db.apply w).forecourt = db.forecourt ∧
      (db.apply w).submissions = db.submissions := by
    rcases hw with _ | _ <;> exact ⟨rfl, rfl⟩
  obtain ⟨hfc, hsubs⟩ := hrest
  refine ⟨hfc ▸ h.shifts, hfc ▸ h.drawn, hsubs ▸ h.ids, ?_, ?_, fun x hx ↦ ?_,
    fun x hx y hy hxy ↦ ?_, ?_⟩
  · rw [hfc, hsubs]
    exact h.known
  · rw [hfc, hsubs]
    exact h.cash
  · rcases hmem x hx with hx | rfl
    · exact h.receiptsDrawn x hx
    · rw [hsub]
      exact (h.known c hc).1
  · rw [hsubs] at hy
    rcases hmem x hx with hx | rfl
    · exact h.receipts x hx y hy hxy
    · rw [inj_on_of_nodup_map h.ids hy hc (hxy.symm.trans hsub)]
      exact hcen
  · rw [hfc, hsubs]
    intro s hs happ y hy hid
    obtain ⟨x, hx, hxid⟩ := h.confirmed s hs happ y hy hid
    obtain ⟨z, hz, hzid⟩ := hkeep x hx
    exact ⟨z, hz, hzid.trans hxid⟩

private theorem replay_raised {raised : List Write} (h : ∀ w ∈ raised, w.Raises shift)
    (db : StationDb) :
    (replay (S := schema env) db raised).forecourt = db.forecourt ∧
      (replay (S := schema env) db raised).submissions = db.submissions ∧
      (replay (S := schema env) db raised).receipts = db.receipts := by
  induction raised generalizing db with
  | nil => exact ⟨rfl, rfl, rfl⟩
  | cons w ws ih =>
    obtain ⟨hw, hws⟩ := forall_mem_cons.mp h
    have hrest := ih hws (db.apply w)
    cases w with
    | insertException e => exact hrest
    | forecourt | assignAttendant | setDayOf | setDay | insertSubmission | insertReceipt
    | setReceipt | setException => exact hw.elim

theorem cashInv_alone (h : CashInv db n) (op : Op) (hop : op.KeepsCash db) :
    CashInv ((op.prog env).alone db [] n).2.1 ((op.prog env).alone db [] n).2.2 := by
  have hday : ∀ (d : OperatingDay) n', n ≤ n' → CashInv (db.apply (.setDay d)) n' :=
    fun _ _ hn ↦ (h.mono hn).congr rfl rfl rfl rfl
  have hyie : ∀ {p : Txn env}, p.Yields db (fun _ db' n' ↦ n ≤ n' → CashInv db' n') db n →
      CashInv (p.alone db [] n).2.1 (p.alone db [] n).2.2 := by
    intro p hp
    let R : Except StationError StationResult × StationDb × ℕ → Prop := fun r ↦ CashInv r.2.1 r.2.2
    change R (p.alone db [] n)
    exact alone_of_yields (fun _ _ hn ↦ h.mono hn) hp
  cases op with
  | forecourt op own =>
    obtain ⟨hn, hkp⟩ := keepsLines_alone op own db.forecourt n
    refine alone_forecourt (Q := fun r ↦ CashInv r.2.1 r.2.2) fun r ↦ (h.mono hn).forecourt hkp
      fun shift hsh ↦ ?_
    cases op with
    | verifyCorrect =>
      cases hsh
      exact hop
    | capture | correct | approve | reject | flag | verifyShift | close | elsewhere => cases hsh
  | openShift actor station day name slot openedAt overrideReason =>
    refine hyie (yields_handleOpenShift fun day users k n' hk hn _ ↦ ?_)
    have hin : CashInv (db.apply (.forecourt (.insertShift
      ⟨k, station, .opened, openedAt, none, none⟩))) n' := h.insertShift hk hn rfl
    rw [replay_openLog]
    exact hin.congr rfl rfl rfl rfl
  | approveShift actor shift status =>
    refine hyie (yields_handleApproveShift fun s n' hfi _ hgat hn ↦ ?_)
    obtain ⟨hs, hid⟩ := key_of_find? hfi
    subst hid
    exact (h.mono hn).approved hs hgat
  | submitCash actor shift req =>
    refine hyie (yields_handleSubmitCash
      fun s t e c raised k n' hk hn hfi hcl ht he hc hrai _ ↦ ?_)
    obtain ⟨hs, hid⟩ := key_of_find? hfi
    subst hid
    have hsub := h.submit hk hn hs hcl he hc (hop t ht e he)
    obtain ⟨hfc, hsubs, hrecs⟩ := replay_raised hrai (db.apply (.insertSubmission c))
    exact hsub.congr (congrArg _ hfc) (congrArg _ hfc) hsubs hrecs
  | confirmCash actor shift receivedTotal status reason =>
    exact hyie (yields_handleConfirmCashSubmission
      fun s c input r id w n' _ _ hinp hrow hw hn ↦ (h.mono hn).confirm hinp hrow hw)
  | resolveException actor id status =>
    exact hyie (yields_handleResolveShiftException fun e n' _ hn ↦
      (h.mono hn).congr rfl rfl rfl rfl)
  | updateDay actor day status now => exact hyie (yields_handleUpdateOperatingDayStatus hday)
  | lockDay actor day now => exact hyie (yields_handleLockOperatingDay hday)

end Inv

/-! ## Every run

Without corrections after a submission and without ties (`Op.KeepsCash`), submission and receipt
show the expected cash of the final close lines in every approved shift
(`expectedCash_of_keepsCash`). -/

/-- In every sequence of requests that corrects no closing of a submitted shift and submits no total
that a tie keeps half a cent from the expected cash, the submission of every approved shift and its
receipt show the expected cash of the close lines, and the variance is the total minus that. -/
theorem expectedCash_of_keepsCash (env : StationEnv) {db : StationDb} {n : ℕ}
    (hshifts : (db.forecourt.shifts.map (·.id)).Nodup)
    (hdrawn : ∀ s ∈ db.forecourt.shifts, s.id < n)
    (hsubs : db.submissions = []) (hreceipts : db.receipts = []) {s : StationDb × ℕ}
    (h : Runs (Op.prog env) (fun db op ↦ op.KeepsCash db) (db, n) s) : ExpectedCashLaw s.1 := by
  have hinit : CashInv db n := by
    have hnoSub : ∀ c, c ∉ db.submissions := fun c ↦ hsubs ▸ not_mem_nil
    have hnoReceipt : ∀ r, r ∉ db.receipts := fun r ↦ hreceipts ▸ not_mem_nil
    exact ⟨hshifts, hdrawn, hsubs ▸ nodup_nil, fun c hc ↦ absurd hc (hnoSub c),
      fun c hc ↦ absurd hc (hnoSub c), fun r hr ↦ absurd hr (hnoReceipt r),
      fun r hr ↦ absurd hr (hnoReceipt r), fun _ _ _ c hc ↦ absurd hc (hnoSub c)⟩
  have hinv := h.invariant (I := fun s ↦ CashInv s.1 s.2) hinit fun s op hs hop ↦
    cashInv_alone hs op hop
  intro x hx happ c hc hid
  obtain ⟨hexp, hvar⟩ := hinv.cash c hc
  exact ⟨hexp, hvar, hinv.confirmed x hx happ c hc hid,
    fun r hr hrid ↦ hinv.receipts r hr c hc hrid⟩

/-- A station whose users may do everything and whose postings succeed. -/
def openEnv : StationEnv where
  forecourt := smallEnv
  can _ _ _ := true
  isSystemAdmin _ := false
  openShiftBlockers _ _ := []
  scheduledTeamFor _ _ _ _ := .team [some 7]
  postShiftSales _ _ := true
  recognizeShiftRevenue _ _ := true

/-- The shift 0 of `smallShift` on the open day 3. -/
def openStation : StationDb where
  forecourt := smallShift.1
  days := [⟨3, 0, 0, .opened, none, none, none, none⟩]
  dayOf := [(0, 3)]
  submissions := []
  receipts := []
  exceptions := []

/-- The shift 0 sells 100 litres at 5.00, its cash is submitted, its closing is judged, the cash is
confirmed with the same total and the shift is approved. -/
def cashHistory (total received : ℚ) (verdict : Forecourt.Op)
    (own : ofForecourt verdict) : List Op :=
  [.forecourt (.capture 7 0 1 .opening 100) rfl, .forecourt (.capture 7 0 1 .closing 200) rfl,
    .forecourt (.close 8 0 0) rfl, .submitCash 7 0 ⟨some total, none, none, none, some "cash"⟩,
    .forecourt verdict own, .confirmCash 8 0 received "" "counted", .approveShift 9 0 "approved"]

/-- The total is 499.99 where 500.00 is expected. -/
theorem expectedCash_of_keepsCash_short :
    ∃ s, Runs (Op.prog openEnv) (fun db op ↦ op.KeepsCash db) (openStation, 1) s ∧
      (s.1.submissions.map fun c ↦ (c.expectedCash, c.variance)) = [(50000, -1)] ∧
      (∀ x ∈ s.1.forecourt.shifts, x.status = .approved) ∧ ExpectedCashLaw s.1 := by
  refine exists_and_imp
    (fun s ↦ (s.1.submissions.map fun c ↦ (c.expectedCash, c.variance)) = [(50000, -1)] ∧
      ∀ x ∈ s.1.forecourt.shifts, x.status = .approved)
    (exists_of_runAll (cashHistory (49999 / 100) (49999 / 100) (.approve 8 0 9) rfl)
      (by decide +kernel)) ?_
  rintro _ hs ⟨hcash, happ⟩
  exact ⟨hcash, happ,
    expectedCash_of_keepsCash openEnv (by decide) (by decide) rfl rfl hs⟩

/-- The closing is corrected from 200 to 150 litres after the cash has been submitted: the approved
shift expects 250.00, its submission and its receipt say 500.00. In the second run the total is
10.005: it is stored as 10.01, the variance as -490.00. -/
theorem not_expectedCash_of_correction :
    (∃ s, Runs (Op.prog openEnv) (fun _ _ ↦ True) (openStation, 1) s ∧
      sumExpected s.1.forecourt 0 = some 25000 ∧ s.1.submissions.map (·.expectedCash) = [50000] ∧
      s.1.receipts.map (·.expectedAmount) = [50000] ∧ ¬ExpectedCashLaw s.1) ∧
    ∃ s, Runs (Op.prog openEnv) (fun _ _ ↦ True) (openStation, 1) s ∧
      (s.1.submissions.map fun c ↦ (c.submittedTotal, c.expectedCash, c.variance))
        = [(1001, 50000, -49000)] ∧ ¬ExpectedCashLaw s.1 :=
  ⟨exists_of_runAll (cashHistory 500 500 (.verifyCorrect 8 0 9 150 "meter misread") rfl)
      (by decide +kernel),
    exists_of_runAll (cashHistory (10005 / 1000) 10 (.approve 8 0 9) rfl) (by decide +kernel)⟩

end FuelGrid.Station
