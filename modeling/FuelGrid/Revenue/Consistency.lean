import FuelGrid.Credit.LimitSafety
import FuelGrid.Revenue.Effects

/-!
# Runs of the revenue handlers

The requests that write the revenue tables, one after the other.
-/

namespace FuelGrid.Revenue

open Sql

inductive RevenueOp where
  | recordPayment (req : PaymentRequest)
  | requestVoid (actor sale : Uuid) (reason : String)
  | decideVoid (decision : Decision) (actor id : Uuid) (note : Option String)
  | mpesaCallback (input : SettleInput)
  | reconcileMpesa (actor id revenueDay : Uuid) (now : ℤ)
  | computeDay (station day : Uuid)
  | lockDay (actor id : Uuid) (now : ℤ)

def RevenueOp.prog (env : Env) : RevenueOp → Txn env
  | .recordPayment req => handleRecordPayment env req
  | .requestVoid actor sale reason => handleRequestSaleVoid env actor sale reason
  | .decideVoid decision actor id note => decideSaleVoid env decision actor id note
  | .mpesaCallback input => handleMpesaCallback env input
  | .reconcileMpesa actor id revenueDay now => handleReconcileMpesa env actor id revenueDay now
  | .computeDay station day => handleComputeRevenueDay env station day
  | .lockDay actor id now => handleLockRevenueDay env actor id now

/-! ## What a request can have done

`RevenueOp.effect` says once what a request can have done; what is proved about runs is a case
analysis of it. -/

/-- The tables that sums are taken over, and the revenue days, are the same. -/
structure SameBooks (db db' : RevenueDb) : Prop where
  shifts : db'.shifts = db.shifts
  days : db'.days = db.days
  sales : db'.sales = db.sales
  voids : db'.voids = db.voids
  payments : db'.payments = db.payments
  revenueDays : db'.revenueDays = db.revenueDays

theorem SameBooks.refl (db : RevenueDb) : SameBooks db db := ⟨rfl, rfl, rfl, rfl, rfl, rfl⟩

theorem SameBooks.trans {db db' db'' : RevenueDb} (h : SameBooks db db') (h' : SameBooks db' db'') :
    SameBooks db db'' :=
  ⟨h'.shifts.trans h.shifts, h'.days.trans h.days, h'.sales.trans h.sales, h'.voids.trans h.voids,
    h'.payments.trans h.payments, h'.revenueDays.trans h.revenueDays⟩

theorem Write.Aside.sameBooks {w : Write} (h : w.Aside) (db : RevenueDb) :
    SameBooks db (db.apply w) := by
  rcases w with p | v | d | m | e | w | w
  · exact h.elim
  · exact h.elim
  · exact h.elim
  all_goals exact ⟨rfl, rfl, rfl, rfl, rfl, rfl⟩

theorem sameBooks_replay {env : Env} {ws : List Write} (h : ∀ w ∈ ws, w.Aside) (db : RevenueDb) :
    SameBooks db (replay (S := schema env) db ws) := by
  induction ws generalizing db with
  | nil => exact .refl db
  | cons w ws ih =>
    obtain ⟨hw, hws⟩ := forall_mem_cons.mp h
    exact (hw.sameBooks db).trans (ih hws (db.apply w))

/-- What a request changes in the books, when ids are drawn from `n` to `n'`. -/
inductive Effect (db : RevenueDb) (n n' : ℕ) : RevenueOp → RevenueDb → Prop
  | nothing (op : RevenueOp) : Effect db n n' op db
  | payment {req : PaymentRequest} {p : Payment} {shift : Shift} (hshift : shift ∈ db.shifts)
      (hid : shift.id = req.shiftId) (hpshift : p.shiftId = some shift.id)
      (hstation : p.stationId = shift.stationId) :
      Effect db n n' (.recordPayment req) (db.apply (.insertPayment p))
  | requested {actor sale : Uuid} {reason : String} {v : SaleVoid} (hn : n ≤ v.id) (hn' : v.id < n')
      (hv : RequestedVoid db v) :
      Effect db n n' (.requestVoid actor sale reason) (db.apply (.putVoid v))
  | decided {decision : Decision} {actor : Uuid} {note : Option String} {v v' : SaleVoid}
      (hv : DecidedVoid db decision v v') :
      Effect db n n' (.decideVoid decision actor v.id note) (db.apply (.putVoid v'))
  | computed {station day : Uuid} {d : RevenueDay} (hd : Computed db n n' station day d) :
      Effect db n n' (.computeDay station day) (db.apply (.putDay d))
  | locked {actor : Uuid} {now : ℤ} {d : RevenueDay} (hd : d ∈ db.revenueDays)
      (hdraft : d.status ≠ .locked) :
      Effect db n n' (.lockDay actor d.id now) (db.apply (.putDay
        { d with status := .locked, lockedBy := some actor, lockedAt := some now }))

/-- Every request has one of the effects, and other changes that are not in the books. -/
theorem RevenueOp.effect (env : Env) (op : RevenueOp) (db : RevenueDb) (n : ℕ) :
    ∃ db', Effect db n ((op.prog env).alone db [] n).2.2 op db' ∧
      SameBooks db' ((op.prog env).alone db [] n).2.1 := by
  let R : Except HttpError RevenueResult × RevenueDb × ℕ → Prop := fun out ↦
    ∃ db', Effect db n out.2.2 op db' ∧ SameBooks db' out.2.1
  have heve : ∀ (db' : RevenueDb) (es : List OutboxEvent),
      SameBooks db' (replay (S := schema env) db' (es.map .insertOutbox)) := fun db' es ↦
    sameBooks_replay (fun w hw ↦ by
      obtain ⟨e, -, rfl⟩ := mem_map.mp hw
      trivial) db'
  have hmpe : ∀ m, SameBooks db (db.apply (.setMpesa m)) := fun m ↦
    Write.Aside.sameBooks (w := .setMpesa m) trivial db
  change R ((op.prog env).alone db [] n)
  refine alone_of_yields (fun _ _ _ ↦ ⟨db, .nothing op, .refl db⟩) ?_
  rcases op with req | ⟨actor, sale, reason⟩ | ⟨decision, actor, id, note⟩ | input |
    ⟨actor, id, revenueDay, now⟩ | ⟨station, day⟩ | ⟨actor, id, now⟩
  · refine yields_handleRecordPayment (fun p n' _ _ ↦ ⟨db, .nothing _, .refl db⟩)
      fun p ws n' hp hside _ ↦ ?_
    obtain ⟨shift, hsh, hid, hpsh, hstn⟩ := hp.onShift
    exact ⟨_, .payment hsh hid hpsh hstn,
      sameBooks_replay (fun w hw ↦ (hside w hw).aside) _⟩
  · exact yields_handleRequestSaleVoid fun v e n' hn hn' hv _ ↦
      ⟨_, .requested hn hn' hv, heve _ [e]⟩
  · refine yields_decideSaleVoid fun v v' es n' hid hv _ ↦ ?_
    subst hid
    exact ⟨_, .decided hv, heve _ es⟩
  · exact yields_handleMpesaCallback (fun n' _ ↦ ⟨db, .nothing _, .refl db⟩)
      fun m n' _ ↦ ⟨db, .nothing _, hmpe m⟩
  · exact yields_handleReconcileMpesa fun m e n' _ ↦
      ⟨db, .nothing _, (hmpe m).trans (heve _ [e])⟩
  · exact yields_handleComputeRevenueDay fun d e n' hd _ ↦ ⟨_, .computed hd, heve _ [e]⟩
  · refine yields_handleLockRevenueDay fun d e n' hd hid hdrf _ ↦ ?_
    subst hid
    exact ⟨_, .locked hd hdrf, heve _ [e]⟩

/-! ## Consistent tables

Every run keeps that the tables refer to each other as they should (`Consistent`): sales and
payments have the station of their shift, a sale has at most one active void, and an approved void
takes back the amounts of its sale. -/

/-- The tables refer to each other as they should. -/
structure Consistent (db : RevenueDb) : Prop where
  shift_ids : (db.shifts.map (·.id)).Nodup
  day_ids : (db.days.map (·.id)).Nodup
  sale_ids : (db.sales.map (·.id)).Nodup
  void_ids : (db.voids.map (·.id)).Nodup
  revenueDay_ids : (db.revenueDays.map (·.id)).Nodup
  /-- A shift is opened on a day of its own station. -/
  shift_day : ∀ sh ∈ db.shifts, ∀ d ∈ db.days, d.id = sh.operatingDayId → d.stationId = sh.stationId
  /-- A sale is recognized with the station and the day of its shift. -/
  sale_shift : ∀ s ∈ db.sales, ∃ sh ∈ db.shifts,
    sh.id = s.shiftId ∧ sh.stationId = s.stationId ∧ sh.operatingDayId = s.operatingDayId
  payment_shift : ∀ p ∈ db.payments, ∀ id, p.shiftId = some id →
    ∃ sh ∈ db.shifts, sh.id = id ∧ sh.stationId = p.stationId
  /-- `uq_sale_void_active` -/
  active_void : ∀ v ∈ db.voids, ∀ w ∈ db.voids, v.status ≠ .rejected → w.status ≠ .rejected →
    v.saleId = w.saleId → v = w
  void_reversal : ∀ v ∈ db.voids, ∀ r, v.reversal = some r →
    ∃ s ∈ db.sales, s.id = v.saleId ∧ r = s.reversal

/-- The ids of voids and revenue days were drawn before `n`. -/
structure DrawnBefore (db : RevenueDb) (n : ℕ) : Prop where
  voids : ∀ v ∈ db.voids, v.id < n
  revenueDays : ∀ d ∈ db.revenueDays, d.id < n

section Preservation

variable {db db' : RevenueDb} {n n' : ℕ} {op : RevenueOp}

theorem Consistent.congr (h : Consistent db) (hsm : SameBooks db db') : Consistent db' := by
  constructor <;> simp only [hsm.shifts, hsm.days, hsm.sales, hsm.voids, hsm.payments,
    hsm.revenueDays]
  exacts [h.shift_ids, h.day_ids, h.sale_ids, h.void_ids, h.revenueDay_ids, h.shift_day,
    h.sale_shift, h.payment_shift, h.active_void, h.void_reversal]

/-- A void put in the place of one that was active, or where no other is active, for the same
sale. -/
theorem Consistent.putVoid (h : Consistent db) {v : SaleVoid}
    (honly : ∀ w ∈ db.voids, w.id ≠ v.id → w.saleId = v.saleId → w.status = .rejected)
    (hrev : ∀ r, v.reversal = some r → ∃ s ∈ db.sales, s.id = v.saleId ∧ r = s.reversal) :
    Consistent (db.apply (.putVoid v)) where
  shift_ids := h.shift_ids
  day_ids := h.day_ids
  sale_ids := h.sale_ids
  void_ids := nodup_key_putRow h.void_ids v
  revenueDay_ids := h.revenueDay_ids
  shift_day := h.shift_day
  sale_shift := h.sale_shift
  payment_shift := h.payment_shift
  active_void w hw w' hw' hact hact' hsl := by
    rcases mem_putRow hw with hv | ⟨hmem, hne⟩ <;> rcases mem_putRow hw' with hv' | ⟨hmem', hne'⟩
    · rw [hv, hv']
    · exact absurd (honly w' hmem' hne' (hsl.symm.trans (congrArg SaleVoid.saleId hv))) hact'
    · exact absurd (honly w hmem hne (hsl.trans (congrArg SaleVoid.saleId hv'))) hact
    · exact h.active_void w hmem w' hmem' hact hact' hsl
  void_reversal w hw r hr := by
    rcases mem_putRow hw with rfl | ⟨hw, -⟩
    · exact hrev r hr
    · exact h.void_reversal w hw r hr

theorem Effect.consistent (heff : Effect db n n' op db') (h : Consistent db) : Consistent db' := by
  rcases heff with _ | ⟨hsh, -, hpsh, hstn⟩ | ⟨-, -, hv⟩ | ⟨hv⟩ | ⟨hd⟩ | ⟨hd, hdrf⟩
  · exact h
  · refine { h with payment_shift := fun p hp id hid ↦ ?_ }
    rcases mem_append.mp hp with hp | hp
    · exact h.payment_shift p hp id hid
    · rw [mem_singleton.mp hp] at hid ⊢
      rw [hpsh] at hid
      exact ⟨_, hsh, some.inj hid, hstn.symm⟩
  · refine h.putVoid (fun w hw _ hsl ↦ hv.only w hw hsl) fun r hr ↦ ?_
    have hsm := (SaleVoid.reversal_iff _).mp (Option.isSome_of_eq_some hr)
    rw [hv.status] at hsm
    cases hsm
  · refine h.putVoid (fun w hw hne hsl ↦ ?_) (hv.saleId ▸ hv.reversal)
    by_contra hact
    -- the void that was decided is an active one of the same sale
    have heq := h.active_void w hw _ hv.mem hact (by rw [hv.requested]; decide)
      (hsl.trans hv.saleId)
    exact hne ((congrArg SaleVoid.id heq).trans hv.id.symm)
  · exact { h with revenueDay_ids := nodup_key_putRow h.revenueDay_ids _ }
  · exact { h with revenueDay_ids := nodup_key_putRow h.revenueDay_ids _ }

theorem Effect.drawnBefore (heff : Effect db n n' op db') (hn : n ≤ n') (h : DrawnBefore db n) :
    DrawnBefore db' n' := by
  have hmono : DrawnBefore db n' :=
    ⟨fun v hv ↦ (h.voids v hv).trans_le hn, fun d hd ↦ (h.revenueDays d hd).trans_le hn⟩
  rcases heff with _ | _ | ⟨-, hn', -⟩ | ⟨hv⟩ | ⟨hd⟩ | @⟨_, _, d, hd, -⟩
  · exact hmono
  · exact ⟨hmono.voids, hmono.revenueDays⟩
  · refine ⟨fun w hw ↦ ?_, hmono.revenueDays⟩
    rcases mem_putRow hw with rfl | ⟨hw, -⟩
    · exact hn'
    · exact hmono.voids w hw
  · refine ⟨fun w hw ↦ ?_, hmono.revenueDays⟩
    rcases mem_putRow hw with rfl | ⟨hw, -⟩
    · exact hv.id ▸ hmono.voids _ hv.mem
    · exact hmono.voids w hw
  · refine ⟨hmono.voids, fun w hw ↦ ?_⟩
    rcases mem_putRow hw with rfl | ⟨hw, -⟩
    · rcases hd.row with ⟨-, hlt⟩ | ⟨d0, hd0, hid, -⟩
      · exact hlt
      · exact hid ▸ hmono.revenueDays d0 hd0
    · exact hmono.revenueDays w hw
  · refine ⟨hmono.voids, fun w hw ↦ ?_⟩
    rcases mem_putRow hw with rfl | ⟨hw, -⟩
    · exact hmono.revenueDays d hd
    · exact hmono.revenueDays w hw

theorem Consistent.of_runs {env : Env} {C : RevenueDb → RevenueOp → Prop} {s0 s : RevenueDb × ℕ}
    (hrun : Runs (S := schema env) (RevenueOp.prog env) C s0 s) (h : Consistent s0.1) :
    Consistent s.1 := by
  refine Runs.invariant (I := fun s ↦ Consistent s.1) hrun h fun s op hs _ ↦ ?_
  obtain ⟨db', heff, hsm⟩ := op.effect env s.1 s.2
  exact (heff.consistent hs).congr hsm

end Preservation

/-- Everyone may do everything, and instants are dates. -/
def Env.plain : Env where
  can _ _ _ := true
  holdsOverride _ := false
  trimSpace := id
  nonNegative
    | .nan => true
    | .infinity negative => !negative
    | .finite x => 0 ≤ x
  positive
    | .nan => true
    | .infinity negative => !negative
    | .finite x => 0 < x
  dateOf := id
  credit := .plain
  chart := {
    accounts := [
      ⟨1, "1200", "Receivables", .asset, .debit, some "accounts_receivable", .active⟩,
      ⟨2, "1300", "Clearing", .asset, .debit, some "sales_clearing", .active⟩]
    ids_nodup := by decide }

/-- Day 3 of station 1 with the shift 7 and a sale of 100.00 on it; customer 1 has credit. -/
def oneSale : RevenueDb where
  stations := [1]
  shifts := [⟨7, 1, 3⟩]
  days := [⟨3, 1, 10⟩]
  sales := [⟨5, 7, 1, 3, 50000, (10000 : ℤ), (0 : ℤ), (10000 : ℤ), none, none⟩]
  voids := []
  payments := []
  revenueDays := []
  mpesa := []
  outbox := []
  credit := Credit.creditDb
  ledger := { periods := [Accounting.smallPeriod .opened], entries := [], lines := [] }

theorem consistent_oneSale : Consistent oneSale where
  shift_ids := by decide
  day_ids := by decide
  sale_ids := by decide
  void_ids := by decide
  revenueDay_ids := by decide
  shift_day := by decide
  sale_shift := by decide
  payment_shift := by decide
  active_void := by decide
  void_reversal _ hv := absurd hv not_mem_nil

/-- Someone pays on the shift. -/
def pay (amount : ℚ) : PaymentRequest where
  actor := 8
  shiftId := 7
  tenderType := some .cash
  amount := .finite amount
  reference := none
  customerId := none
  allowOverLimit := false
  notes := none
  headerKey := ""
  bodyKey := none
  now := 12

end FuelGrid.Revenue
