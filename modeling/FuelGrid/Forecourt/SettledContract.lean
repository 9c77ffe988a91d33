import FuelGrid.Forecourt.VerdictSafety

/-!
# A contract for close lines and verified closings

A closing can be verified before or after its shift is closed. The close builds its lines from the
final figures it finds, and a correction that finds the shift closed rewrites the line.

There is a second difference between the two ways. The close computes the value from the figure that
the verification stores, which has three decimals. The correction computes it from the figure of the
request, which can have a fourth one where the meter shows four.

This module states the law for the lines, the contract between the requests and what their commits
do to the tables; the requests are executed under it in `SettledLines`.
-/

namespace FuelGrid.Forecourt

open Sql

variable {env : Env} {l : CloseLine} {shift nozzle actor : Uuid} {now : ℤ}

/-- Litres and value are those of the line's readings. -/
def CloseLine.Derived (l : CloseLine) : Prop :=
  l.litresSold = l.closingReading - l.openingReading ∧
    store 14 2 (((l.closingReading : ℚ) / 10 ^ 3 - (l.openingReading : ℚ) / 10 ^ 3)
      * ((l.unitPrice : ℚ) / 10 ^ 2)) = some l.expectedValue
  deriving Decidable

/-- The line shows the settled closing of its nozzle and what follows from it. -/
def CloseLine.Settled (l : CloseLine) (db : ShiftDb) : Prop :=
  (∃ m ∈ db.readings, m.ActiveFor l.shiftId l.nozzleId .closing ∧
    l.closingReading = settledClosing db m) ∧ l.Derived
  deriving Decidable

/-! ## The race

Neither request locks the other out: the close reads the figures before it locks the shift, and the
correction reads the status of the shift without any lock. A correction that found the shift open
and commits after the close has read the figures leaves a line that nobody rewrites (`Overtakes`).
-/

def Op.closes : Op → Option Uuid
  | .close _ shift _ => some shift
  | _ => none

def Op.corrects : Op → Option Uuid
  | .verifyCorrect _ shift _ _ _ => some shift
  | _ => none

/-- The requests that leave the readings and the set of shifts alone. -/
def Op.KeepsReadings : Op → Prop
  | .capture .. | .correct .. | .elsewhere (.openShift ..) => False
  | _ => True

/-- The close of the shift has read the final figures. -/
def PastOverrides (shift : Uuid) (l : Local (schema env)) : Prop :=
  .shift shift ∈ l.held ∨ (match l.prog with
    | .query (.rollbackNozzles _) _ | .query (.getNozzle _) _ | .lock _ _ => true
    | _ => false) = true

/-- A close commits over a correction of its shift, or a correction over the close of its shift. -/
def Overtakes (op op' : Op) (l : Local (schema env)) : Prop :=
  (∃ shift ∈ op.closes, op'.corrects = some shift ∧ Started l) ∨
    ∃ shift ∈ op.corrects, op'.closes = some shift ∧ PastOverrides shift l

instance {T : Type} [DecidableEq T] (op op' : Op) (s : State (schema env) T) (t : T) (p : Txn env) :
    Decidable (Overtakes op op' (s.txn t p)) :=
  have (shift : Uuid) : Decidable (PastOverrides shift (s.txn t p)) :=
    @instDecidableOr _ _ (State.decidableHeld s t (LockKey.shift shift))
      (inferInstanceAs (Decidable (_ = true)))
  inferInstanceAs (Decidable ((∃ shift ∈ _, _) ∨ ∃ shift ∈ _, _))

/-- A line is rewritten from a figure that the columns can hold. -/
def RecomputesWhole (l : Local (schema env)) (_ : ShiftDb) : Prop :=
  (match l.prog with
    | .query (.recomputeCloseLine _ _ newClosing) _ => (newClosing * 10 ^ 3).isInt
    | _ => true) = true
  deriving Decidable

/-- The condition on a run: no close and no correction of the same shift overtake each other, and
lines are rewritten from figures of three decimals. -/
def InOrder {T : Type} (ops : T → Op) (s : State (schema env) T) (a : Act T) : Prop :=
  s.ApartBy (fun t u ↦ Overtakes (ops t) (ops u)) a ∧ s.Acting RecomputesWhole a

instance {T : Type} [DecidableEq T] [Fintype T] (ops : T → Op) (s : State (schema env) T)
    (a : Act T) : Decidable (InOrder ops s a) := inferInstanceAs (Decidable (_ ∧ _))

theorem CloseLine.recompute_eq_some {l' : CloseLine} {verified : ℚ}
    (h : l.recompute verified = some l') (hwh : (verified * 10 ^ 3).isInt) :
    l'.shiftId = l.shiftId ∧ l'.nozzleId = l.nozzleId ∧ l'.Derived ∧
      store 14 3 verified = some l'.closingReading := by
  simp only [CloseLine.recompute, bind_eq_bind, bind_eq_some_iff, pure_def,
    some.injEq] at h
  obtain ⟨closing, hcls, litres, hlit, value, hval, rfl⟩ := h
  have huni : verified * 10 ^ 3 = ((verified * 10 ^ 3).num : ℚ) := by
    refine (Rat.coe_int_num_of_den_eq_one ?_).symm
    simpa [Rat.isInt] using hwh
  have hcls' : closing = (verified * 10 ^ 3).num := store_units huni hcls
  have hver : verified = (closing : ℚ) / 10 ^ 3 := by
    rw [hcls', ← huni]
    ring
  refine ⟨rfl, rfl, ⟨?_, ?_⟩, hcls⟩
  · refine store_units ?_ hlit
    rw [hver]
    push_cast
    ring
  · rw [← hver]
    exact hval

/-! ## The contract

The locks of a transaction keep their rows; a correction that has begun keeps its shift open, and a
close that has read the final figures keeps them. -/

/-- What a transaction relies on. -/
structure SettleRely (op : Op) (l : Local (schema env)) (db db' : ShiftDb) : Prop where
  readings : db'.readings = db.readings
  shut : ∀ shift, Shut db shift → Shut db' shift
  noLine : ∀ shift nozzle, Shut db shift → findLine db shift nozzle = none →
    findLine db' shift nozzle = none
  verdict : ∀ r, .verification r ∈ l.held → verdictOf db' r = verdictOf db r
  line : ∀ shift nozzle, .closeLine shift nozzle ∈ l.held → Shut db shift →
    findLine db' shift nozzle = findLine db shift nozzle
  opened : ∀ shift, .shift shift ∈ l.held ∨ (op.corrects = some shift ∧ Started l) →
    Shut db' shift → Shut db shift
  closing : ∀ shift ∈ op.closes, PastOverrides shift l → ∀ m ∈ db.readings, m.shiftId = shift →
    settledClosing db' m = settledClosing db m

/-- What a transaction that holds the locks in `held` promises about its commit. -/
structure SettleGuar (op : Op) (held : Set LockKey) (db db' : ShiftDb) : Prop where
  readings : db'.readings = db.readings
  shut : ∀ shift, Shut db shift → Shut db' shift
  noLine : ∀ shift nozzle, Shut db shift → findLine db shift nozzle = none →
    findLine db' shift nozzle = none
  verdict : ∀ r, .verification r ∉ held → verdictOf db' r = verdictOf db r
  line : ∀ shift nozzle, .closeLine shift nozzle ∉ held → Shut db shift →
    findLine db' shift nozzle = findLine db shift nozzle
  opened : ∀ shift, Shut db' shift → Shut db shift ∨ (op.closes = some shift ∧ .shift shift ∈ held)
  closing : ∀ m ∈ db.readings, settledClosing db' m = settledClosing db m ∨
    op.corrects = some m.shiftId

/-- The keys hold, and lines are settled and belong to shifts that are not open. -/
structure SettledInv (db : ShiftDb) : Prop where
  keys : Keys db
  lines : ∀ l ∈ db.lines, Shut db l.shiftId ∧ l.Settled db

theorem SettleRely.trans {op : Op} {l : Local (schema env)} {db1 db2 db3 : ShiftDb}
    (h : SettleRely op l db1 db2) (h' : SettleRely op l db2 db3) : SettleRely op l db1 db3 where
  readings := h'.readings.trans h.readings
  shut shift hshut := h'.shut shift (h.shut shift hshut)
  noLine shift nozzle hshut hno :=
    h'.noLine shift nozzle (h.shut shift hshut) (h.noLine shift nozzle hshut hno)
  verdict r hr := (h'.verdict r hr).trans (h.verdict r hr)
  line shift nozzle hhd hshut :=
    (h'.line shift nozzle hhd (h.shut shift hshut)).trans (h.line shift nozzle hhd hshut)
  opened shift hkeep hshut := h.opened shift hkeep (h'.opened shift hkeep hshut)
  closing shift hsh hpast m hm hid :=
    (h'.closing shift hsh hpast m (h.readings ▸ hm) hid).trans
      (h.closing shift hsh hpast m hm hid)

variable (env) in
/-- The terms between the close of a shift and the verification of its closings. -/
def settleContract (op : Op) : Contract (schema env) where
  inv db _ := SettledInv db
  rely := SettleRely op
  cond l db _ := RecomputesWhole l db
  guar l db _ := SettleGuar op l.held db (replay (S := schema env) db l.log)
  post _ _ _ := True
  inv_tick h := h
  rely_refl _ _ := ⟨rfl, fun _ h ↦ h, fun _ _ _ h ↦ h, fun _ _ ↦ rfl, fun _ _ _ _ ↦ rfl,
    fun _ _ h ↦ h, fun _ _ _ _ _ _ ↦ rfl⟩
  rely_trans := .trans

/-- A commit that overtakes nobody is one that the others rely on. -/
theorem settleContract_suits {T : Type} (ops : T → Op) :
    Contract.SuitsEach (fun t ↦ settleContract env (ops t)) (fun db _ ↦ SettledInv db)
      (InOrder ops) where
  inv _ _ _ := .rfl
  cond hC hp := hC.2.of_prog hp
  compat {s t a u p} hC ht _ hguar hne hu := by
    have hexcl : ∀ k ∈ s.held u, k ∉ s.held t := fun k hk hk' ↦ hne (eq_of_held rfl hk hk')
    have hapa : ¬Overtakes (ops t) (ops u) (s.txn u p) := hC.1.not_clash ht hne hu
    refine ⟨hguar.readings, hguar.shut, hguar.noLine, fun r hr ↦ hguar.verdict r (hexcl _ hr),
      fun shift nozzle hhd ↦ hguar.line shift nozzle (hexcl _ hhd), fun shift hkeep hsh ↦ ?_,
      fun shift hcls hpast m hm hid ↦ ?_⟩
    · rcases hguar.opened shift hsh with hsh | ⟨hcls, hlock⟩
      · exact hsh
      · rcases hkeep with hhd | ⟨hcor, hstd⟩
        · exact absurd hlock (hexcl _ hhd)
        · exact absurd (.inl ⟨shift, hcls, hcor, hstd⟩) hapa
    · rcases hguar.closing m hm with heq | hcor
      · exact heq
      · exact absurd (.inr ⟨shift, hid ▸ hcor, hcls, hpast⟩) hapa

/-! ## What the commits do

Verdicts, recomputed lines and closes keep the lines settled. -/

/-- The key of `shift_close_lines`. -/
def CloseLine.key (l : CloseLine) : Uuid × Uuid := (l.shiftId, l.nozzleId)

private theorem findLine_eq (db : ShiftDb) (shift nozzle : Uuid) :
    findLine db shift nozzle = db.lines.find? fun l ↦ l.key = (shift, nozzle) := by
  simp only [findLine, CloseLine.key, Prod.mk.injEq]

private theorem lines_setLine (db : ShiftDb) (l : CloseLine) :
    (db.apply (.setLine l)).lines = db.lines.map fun l' ↦ if l'.key = l.key then l else l' := by
  simp only [ShiftDb.apply, CloseLine.key, Prod.mk.injEq]

theorem findLine_eq_none {db : ShiftDb} : findLine db shift nozzle = none ↔
    ∀ l ∈ db.lines, l.key ≠ (shift, nozzle) := by
  rw [findLine_eq, find?_key_eq_none]

section Commit

variable {db db' : ShiftDb} {vs : List Verification} {v : Verification} {op : Op}
  {held : Set LockKey} {s : Shift} {lines : List CloseLine}

theorem CloseLine.Settled.judged (h : l.Settled db) (hks : Keys db) (hj : Judged db db' vs)
    (hvs : ∀ v ∈ vs, v.Keeps db)
    (hl : ∀ v ∈ vs, v.status = .corrected → ∀ m ∈ db.readings, m.id = v.readingId →
      ¬m.ActiveFor l.shiftId l.nozzleId .closing) : l.Settled db' := by
  obtain ⟨⟨m, hm, hact, hcls⟩, hder⟩ := h
  refine ⟨⟨m, hj.readings ▸ hm, hact, ?_⟩, hder⟩
  rw [hj.settledClosing_eq hks hvs hm fun v hv hid hcor ↦
    hl v hv hcor m hm hid.symm hact]
  exact hcls

theorem Judged.shut (hj : Judged db db' vs) : Shut db' shift ↔ Shut db shift := by
  rw [Shut, hj.shifts, Shut]

/-- Verdicts on readings without a line keep the invariant, whatever they say. -/
theorem SettledInv.judged (h : SettledInv db) (hj : Judged db db' vs) (hvs : ∀ v ∈ vs, v.Keeps db)
    (hfr : ∀ v ∈ vs, v.status = .corrected → ∀ m ∈ db.readings, m.id = v.readingId →
      findLine db m.shiftId m.nozzleId = none) : SettledInv db' := by
  refine ⟨hj.keys h.keys hvs, fun l hl ↦ ?_⟩
  rw [hj.lines] at hl
  obtain ⟨hsh, hset⟩ := h.lines l hl
  refine ⟨hj.shut.mpr hsh, hset.judged h.keys hj hvs fun v hv hcor m hm hid hact ↦ ?_⟩
  refine findLine_eq_none.mp (hfr v hv hcor m hm hid) l hl ?_
  rw [CloseLine.key, hact.1, hact.2.1]

/-- What verdicts promise: their rows are locked, and only corrections move a closing. -/
theorem Judged.settleGuar (hj : Judged db db' vs) (hks : Keys db) (hvs : ∀ v ∈ vs, v.Keeps db)
    (hhd : ∀ v ∈ vs, .verification v.readingId ∈ held)
    (hop : ∀ v ∈ vs, v.status = .corrected → op.corrects = some v.shiftId) :
    SettleGuar op held db db' where
  readings := hj.readings
  shut _ := hj.shut.mpr
  noLine shift nozzle _ hno := by rwa [findLine, hj.lines]
  verdict r hr := hj.other r fun v hv hid ↦ hr (hid ▸ hhd v hv)
  line shift nozzle _ _ := by rw [findLine, hj.lines, findLine]
  opened _ hsh := .inl (hj.shut.mp hsh)
  closing m hm := by
    by_cases hcor : ∀ v ∈ vs, v.readingId = m.id → v.status ≠ .corrected
    · exact .inl (hj.settledClosing_eq hks hvs hm hcor)
    · push Not at hcor
      obtain ⟨v, hv, hid, hst⟩ := hcor
      rw [← (hvs v hv m hm hid.symm).1]
      exact .inr (hop v hv hst)

theorem SettledInv.recomputed (h : SettledInv db) (hj : Judged db db' [v]) (hv : v.Keeps db)
    {m : MeterReading} (hm : m ∈ db.readings) (hid : v.readingId = m.id)
    (hact : m.ActiveFor m.shiftId m.nozzleId .closing) (hcor : v.status = .corrected)
    {l' : CloseLine} (hl : findLine db m.shiftId m.nozzleId = some l) (hkey : l'.key = l.key)
    (hder : l'.Derived) (hcls : l'.closingReading = v.finalApprovedReading) :
    SettledInv (db'.apply (.setLine l')) := by
  have hvs : ∀ v' ∈ [v], v'.Keeps db := fun v' hv' ↦ by rwa [mem_singleton.mp hv']
  have hks : Keys db' := hj.keys h.keys hvs
  rw [findLine_eq] at hl
  obtain ⟨hmem, hlkey⟩ := key_of_find? hl
  rw [hlkey] at hkey
  obtain ⟨hsh, hnoz⟩ : l'.shiftId = m.shiftId ∧ l'.nozzleId = m.nozzleId := by
    simpa [CloseLine.key] using hkey
  refine ⟨⟨hks.shifts, hks.readings, hks.unique, hks.verifications, hks.verdicts⟩,
    fun x hx ↦ ?_⟩
  rw [lines_setLine] at hx
  rcases mem_update hx with rfl | ⟨hx, hne⟩
  · -- the rewritten line has the key of the old one and the figure of the verdict
    refine ⟨?_, ⟨m, hj.readings ▸ hm, hsh ▸ hnoz ▸ hact, ?_⟩, hder⟩
    · have hshut := hj.shut.mpr (h.lines l hmem).1
      rw [hsh, ← (Prod.mk.inj hlkey).1]
      exact hshut
    · have hnew : verdictOf db' m.id = some v := hid ▸ hj.new v mem_cons_self
      change _ = settledClosing db' m
      rw [hcls, settledClosing, hnew]
      dsimp only
      rw [if_neg]
      rw [hcor]
      rintro (h | h) <;> cases h
  · rw [hj.lines] at hx
    obtain ⟨hshut, hset⟩ := h.lines x hx
    have hset' : x.Settled db' := by
      refine hset.judged h.keys hj hvs fun v' hv' _ m' hm' hid' hact' ↦ hne ?_
      rw [mem_singleton.mp hv', hid] at hid'
      have hsm : m' = m := inj_on_of_nodup_map h.keys.readings hm' hm hid'
      rw [hsm] at hact'
      rw [hkey, CloseLine.key, ← hact'.1, ← hact'.2.1]
    exact ⟨hj.shut.mpr hshut, hset'⟩

theorem SettleGuar.setLine (h : SettleGuar op held db db') (hlns : db'.lines = db.lines)
    (hhd : .closeLine l.shiftId l.nozzleId ∈ held) :
    SettleGuar op held db (db'.apply (.setLine l)) where
  readings := h.readings
  shut := h.shut
  noLine shift nozzle hsh hno := by
    have hno' := h.noLine shift nozzle hsh hno
    rw [findLine_eq, lines_setLine, find?_update, ← findLine_eq, hno', Option.map_none]
  verdict := h.verdict
  line shift nozzle hfr hsh := by
    have hne : (shift, nozzle) ≠ l.key := by
      rintro heq
      rw [CloseLine.key, Prod.mk.injEq] at heq
      rw [heq.1, heq.2] at hfr
      exact hfr hhd
    rw [findLine_eq, lines_setLine, find?_update_of_ne hne, hlns, ← findLine_eq]
  opened := h.opened
  closing := h.closing

theorem Shut.setShift (h : Shut db shift) (hs : s.status ≠ .opened) :
    Shut (db.apply (.setShift s)) shift := by
  intro x hx hid
  rcases mem_setShift hx with rfl | ⟨hx, -⟩
  · exact hs
  · exact h x hx hid

theorem Shut.of_setShift (h : Shut (db.apply (.setShift s)) shift) (hne : shift ≠ s.id) :
    Shut db shift := by
  intro x hx hid
  exact h x (mem_update_of_ne hx (hid ▸ hne)) hid

theorem SettledInv.close (h : SettledInv db) (hlns : ∀ l ∈ lines, l.shiftId = s.id ∧ l.Settled db) :
    SettledInv (replay (S := schema env) db (closeLog lines (s.close actor now))) := by
  have hks := h.keys.setShift (s.close actor now)
  rw [replay_closeLog]
  refine ⟨⟨hks.shifts, hks.readings, hks.unique, hks.verifications, hks.verdicts⟩,
    fun l hl ↦ ?_⟩
  have hcl : (s.close actor now).status ≠ .opened := nofun
  rcases mem_append.mp hl with hl | hl
  · obtain ⟨hsh, hset⟩ := h.lines l hl
    exact ⟨hsh.setShift hcl, hset⟩
  · obtain ⟨hid, hset⟩ := hlns l hl
    rw [hid]
    refine ⟨fun x hx hid ↦ ?_, hset⟩
    rcases mem_setShift hx with rfl | ⟨-, hne⟩
    · exact hcl
    · exact absurd hid hne

theorem settleGuar_close (hopen : ¬Shut db s.id) (hlns : ∀ l ∈ lines, l.shiftId = s.id)
    (hop : op.closes = some s.id) (hhd : .shift s.id ∈ held) :
    SettleGuar op held db (replay (S := schema env) db (closeLog lines (s.close actor now))) := by
  have hcl : (s.close actor now).status ≠ .opened := nofun
  -- lines are added to the closed shift only
  have hln : ∀ shift nozzle, Shut db shift →
      findLine (replay (S := schema env) db (closeLog lines (s.close actor now))) shift nozzle
        = findLine db shift nozzle := by
    intro shift nozzle hsh
    rw [findLine_eq, replay_closeLog, findLine_eq]
    refine find?_key_append _ _ fun l hl hkey ↦ hopen ?_
    rw [← hlns l hl, (Prod.mk.inj hkey).1]
    exact hsh
  refine ⟨?_, fun shift hsh ↦ ?_, fun shift nozzle hsh hno ↦ ?_, fun r _ ↦ ?_,
    fun shift nozzle _ hsh ↦ hln shift nozzle hsh, fun shift hsh ↦ ?_, fun m _ ↦ ?_⟩
  · rw [replay_closeLog]
  · rw [replay_closeLog]
    exact hsh.setShift hcl
  · rw [hln shift nozzle hsh]
    exact hno
  · rw [replay_closeLog]
    rfl
  · rw [replay_closeLog] at hsh
    by_cases hid : shift = s.id
    · subst hid
      exact .inr ⟨hop, hhd⟩
    · exact .inl (Shut.of_setShift (s := s.close actor now) hsh hid)
  · rw [replay_closeLog]
    exact .inl rfl

theorem settled_setShift (h : SettledInv db) (hsh : Shut db s.id) (hs : s.status ≠ .opened) :
    SettledInv (db.apply (.setShift s)) ∧ SettleGuar op held db (db.apply (.setShift s)) := by
  refine ⟨⟨h.keys.setShift s, fun l hl ↦ ?_⟩, ?_⟩
  · obtain ⟨hsh, hset⟩ := h.lines l hl
    exact ⟨hsh.setShift hs, hset⟩
  · refine ⟨rfl, fun shift hsh ↦ hsh.setShift hs, fun _ _ _ h ↦ h, fun _ _ ↦ rfl,
      fun _ _ _ _ ↦ rfl, fun shift hsh' ↦ ?_, fun _ _ ↦ .inl rfl⟩
    by_cases hid : shift = s.id
    · subst hid
      exact .inl hsh
    · exact .inl (hsh'.of_setShift hid)

end Commit

end FuelGrid.Forecourt
