import FuelGrid.Revenue.Handlers

/-!
# What the handlers change

One rule for each handler: executed alone it fails and leaves the database as it was, or it answers
and the rule says what it has written. Later modules use these rules and do not look into the
programs again.
-/

namespace FuelGrid.Revenue

open Sql

/-! ## What the statements return -/

theorem DayFigures.stored_eq_some {f g : DayFigures} (h : f.stored = some g) : g = f := by
  simp only [DayFigures.stored, bind, pure, bind_eq_some_iff, some.injEq] at h
  obtain ⟨gross, h1, net, h2, tax, h3, cogs, h4, margin, h5, cash, h6, momo, h7, card, h8, credit,
    h9, voucher, h10, total, h11, variance, h12, rfl⟩ := h
  rw [store_ofUnits h1, store_ofUnits h2, store_ofUnits h3, store_ofUnits h4,
    store_ofUnits h5, store_ofUnits h6, store_ofUnits h7, store_ofUnits h8,
    store_ofUnits h9, store_ofUnits h10, store_ofUnits h11, store_ofUnits h12]

structure RevenueDay.Current (d : RevenueDay) (db : RevenueDb) : Prop where
  revenue : d.revenue = db.dayRevenue d.stationId d.operatingDayId
  tenders : d.tenders = db.dayTenders d.stationId d.operatingDayId

instance (d : RevenueDay) (db : RevenueDb) : Decidable (d.Current db) :=
  decidable_of_iff (d.revenue = db.dayRevenue d.stationId d.operatingDayId ∧
    d.tenders = db.dayTenders d.stationId d.operatingDayId)
    ⟨fun h ↦ ⟨h.1, h.2⟩, fun h ↦ ⟨h.1, h.2⟩⟩

/-- What `ComputeDay` returns: a draft with the figures of the station-day, in a row whose id was
drawn from `n` to `n'` or in that of an earlier draft. -/
structure Computed (db : RevenueDb) (n n' : ℕ) (station day : Uuid) (d : RevenueDay) : Prop
    extends d.Current db where
  stationId : d.stationId = station
  operatingDayId : d.operatingDayId = day
  cashVariance : d.cashVariance = d.tenders.total - d.revenue.gross
  status : d.status = .draft
  row : (n ≤ d.id ∧ d.id < n') ∨ ∃ d₀ ∈ db.revenueDays, d₀.id = d.id ∧ d₀.status = .draft

private theorem computed_of_upsertDay {db : RevenueDb} {n n1 n' : ℕ} {station day : Uuid}
    {f : DayFigures}
    {d : RevenueDay} (hn : n ≤ n1) (hn' : n1 < n') (hf : dayFigures db station day = some f)
    (h : upsertDay db n1 station day f = .ok (some d)) : Computed db n n' station day d := by
  obtain ⟨od, -, rfl⟩ := map_eq_some_iff.mp hf
  unfold upsertDay at h
  split at h
  · cases h
  next g hg =>
    obtain rfl := DayFigures.stored_eq_some hg
    split at h
    · split at h
      · obtain rfl := some.inj (ok.inj h)
        exact ⟨⟨rfl, rfl⟩, rfl, rfl, rfl, rfl, .inl ⟨hn, hn'⟩⟩
      · cases h
    next d₀ hfi =>
      split at h
      · cases h
      next hdrf =>
        obtain rfl := some.inj (ok.inj h)
        have hkey : d₀.stationId = station ∧ d₀.operatingDayId = day := by
          simpa using find?_some hfi
        have hsta : d₀.status = .draft := by
          rcases hst : d₀.status with _ | _
          · rfl
          · exact absurd hst hdrf
        obtain ⟨rfl, rfl⟩ := hkey
        exact ⟨⟨rfl, rfl⟩, rfl, rfl, rfl, hsta,
          .inr ⟨d₀, mem_of_find?_eq_some hfi, rfl, hsta⟩⟩

variable {id actor sale : Uuid} {now : ℤ} {input : RecordInput} {p : Payment} {decision : Decision}
  {note : Option String} {m : ℕ} {reason : String}

/-- The row that `Record` inserts; no other payment has its key. -/
structure InsertedPayment (db : RevenueDb) (n : ℕ) (input : RecordInput) (p : Payment) : Prop where
  id : p.id = n
  amount : input.amount.store 14 2 = some p.amount
  shiftId : p.shiftId = input.shiftId
  stationId : p.stationId = input.stationId
  receivedAt : p.receivedAt = input.now
  idempotencyKey : p.idempotencyKey = input.idempotencyKey
  free : input.idempotencyKey.isSome → ∀ p' ∈ db.payments, p'.idempotencyKey ≠ input.idempotencyKey

theorem insertPayment_eq_some {db : RevenueDb} {n : ℕ}
    (h : insertPayment db n input = .ok (some p)) : InsertedPayment db n input p := by
  unfold insertPayment at h
  split at h
  · cases h
  next amount hamt =>
    split at h
    · split at h
      · cases h
      next hkey =>
        split at h
        · obtain rfl := some.inj (ok.inj h)
          exact ⟨rfl, hamt, rfl, rfl, rfl, rfl, fun hsm p' hp' heq ↦ hkey ⟨hsm, p', hp', heq⟩⟩
        · cases h
    · cases h

/-- What `RequestVoid` inserts: the only active void of a sale, which takes nothing back yet. -/
structure RequestedVoid (db : RevenueDb) (v : SaleVoid) : Prop where
  status : v.status = .requested
  only : ∀ w ∈ db.voids, w.saleId = v.saleId → w.status = .rejected

private theorem insertVoid_eq_ok {db : RevenueDb} {n : ℕ} {v : SaleVoid}
    (h : insertVoid db n sale actor reason = .ok v) : v.id = n ∧ RequestedVoid db v := by
  unfold insertVoid at h
  split at h
  · cases h
  next hfr =>
    split at h
    · obtain rfl := ok.inj h
      refine ⟨rfl, rfl, fun w hw hsl ↦ ?_⟩
      by_contra hact
      exact hfr ⟨w, hw, hsl, hact⟩
    · cases h

/-- What a decision makes of a void that was open: an approved one takes its sale back, a rejected
one nothing. -/
structure DecidedVoid (db : RevenueDb) (decision : Decision) (v v' : SaleVoid) : Prop where
  mem : v ∈ db.voids
  requested : v.status = .requested
  id : v'.id = v.id
  saleId : v'.saleId = v.saleId
  approve : v'.status = .approved → decision = .approve
  reversal : ∀ r, v'.reversal = some r → ∃ s ∈ db.sales, s.id = v.saleId ∧ r = s.reversal

private theorem decideVoid_eq_some {db : RevenueDb} {v' : SaleVoid}
    (h : decideVoid db decision id actor note = some v') :
    ∃ v, v.id = id ∧ DecidedVoid db decision v v' := by
  simp only [decideVoid, bind, bind_eq_some_iff] at h
  obtain ⟨v, hfi, h⟩ := h
  have hv : v.id = id ∧ v.status = .requested := by simpa using find?_some hfi
  have hmem : v ∈ db.voids := mem_of_find?_eq_some hfi
  rcases decision with _ | _
  · obtain ⟨s, hs, h⟩ := bind_eq_some_iff.mp h
    obtain rfl := some.inj h
    obtain ⟨hsmem, hsid⟩ := key_of_find? hs
    refine ⟨v, hv.1, hmem, hv.2, rfl, rfl, fun _ ↦ rfl, ?_⟩
    rintro r ⟨rfl⟩
    exact ⟨s, hsmem, hsid, rfl⟩
  · obtain rfl := some.inj h
    exact ⟨v, hv.1, hmem, hv.2, rfl, rfl, nofun, nofun⟩

/-! ## The handlers executed alone -/

section Rules

variable {env : Env} {db : RevenueDb} {n : ℕ} {Q : RevenueResult → RevenueDb → ℕ → Prop}

theorem yields_handleComputeRevenueDay {station day : Uuid}
    (hok : ∀ d e n', Computed db n n' station day d →
      Q (.day d) ((db.apply (.putDay d)).apply (.insertOutbox e)) n') :
    (handleComputeRevenueDay env station day).Yields db Q db n := by
  refine yields_reply rfl fun f hf ↦ ?_
  have hf : dayFigures db station day = f := hf
  rcases f with _ | f
  · trivial
  · rw [yields_lock]
    refine yields_step fun ws r hout ↦ ?_
    obtain ⟨e, -, rfl, rfl⟩ | ⟨-, rfl, rfl⟩ | ⟨d, hup, rfl, rfl⟩ := loggedRow_eq hout
    · cases e <;> trivial
    · trivial
    · exact hok d _ (n + 3) (computed_of_upsertDay (by omega) (by omega) hf hup)

theorem yields_refuseLock : (refuseLock env id).Yields db Q db m := by
  refine yields_read rfl fun d ↦ ?_
  rcases d with _ | d <;> trivial

theorem yields_handleLockRevenueDay
    (hok : ∀ d e n', d ∈ db.revenueDays → d.id = id → d.status ≠ .locked →
      Q (.day { d with status := .locked, lockedBy := some actor, lockedAt := some now })
        ((db.apply (.putDay
          { d with status := .locked, lockedBy := some actor, lockedAt := some now })).apply
            (.insertOutbox e)) n') : (handleLockRevenueDay env actor id now).Yields db Q db n := by
  refine yields_read rfl ?_
  rintro (_ | d₀)
  · exact yields_refuseLock
  · rw [yields_lock]
    refine yields_step fun ws r hout ↦ ?_
    obtain ⟨-, rfl, rfl⟩ | ⟨d', hlock, rfl, rfl⟩ := loggedUpdate_eq hout
    · exact yields_refuseLock
    · obtain ⟨d, hfi, rfl⟩ := map_eq_some_iff.mp hlock
      have hd : d.id = id ∧ d.status ≠ .locked := by simpa using find?_some hfi
      exact hok d _ _ (mem_of_find?_eq_some hfi) hd.1 hd.2

theorem yields_handleRequestSaleVoid (hok : ∀ v e n', n ≤ v.id → v.id < n' → RequestedVoid db v →
      Q (.void v) ((db.apply (.putVoid v)).apply (.insertOutbox e)) n') :
    (handleRequestSaleVoid env actor sale reason).Yields db Q db n := by
  unfold handleRequestSaleVoid
  split
  · trivial
  refine yields_read rfl ?_
  rintro (_ | s)
  · trivial
  dsimp only
  unfold authorizeStation
  split
  · rw [yields_lock]
    refine yields_step fun ws r hout ↦ ?_
    obtain ⟨e, -, rfl, rfl⟩ | ⟨v, hins, rfl, rfl⟩ := logged_eq hout
    · cases e <;> trivial
    · obtain ⟨hid, hreq⟩ := insertVoid_eq_ok hins
      exact hok v _ (n + 3) (hid ▸ le_succ n) (hid ▸ Nat.lt_add_of_pos_right two_pos) hreq
  · trivial

theorem yields_decideSaleVoid
    (hok : ∀ v v' (es : List OutboxEvent) n', v.id = id → DecidedVoid db decision v v' →
      Q (.void v') (replay (S := schema env) (db.apply (.putVoid v')) (es.map .insertOutbox)) n') :
    (decideSaleVoid env decision actor id note).Yields db Q db n := by
  refine yields_read rfl ?_
  rintro (_ | v0)
  · trivial
  refine yields_read rfl ?_
  rintro (_ | s)
  · trivial
  dsimp only
  unfold authorizeStation
  split
  swap
  · trivial
  refine yields_read rfl ?_
  rintro (_ | v1)
  · trivial
  rw [yields_lock]
  refine yields_read rfl ?_
  rintro (_ | v2)
  · trivial
  dsimp only
  split
  · trivial
  split
  · trivial
  refine yields_step fun ws r hout ↦ ?_
  obtain ⟨-, rfl, rfl⟩ | ⟨v', hdec, rfl, rfl⟩ := loggedUpdate_eq hout
  · trivial
  obtain ⟨v, hid, hdei⟩ := decideVoid_eq_some hdec
  rcases decision with _ | _
  · exact hok v v' [⟨"SaleReversalCreated", "sale", v'.saleId⟩,
      ⟨"PaymentReversalCreated", "sale", v'.saleId⟩, ⟨"SaleVoidApproved", "sale_void", v'.id⟩] _
      hid hdei
  · exact hok v v' [⟨"SaleVoidRejected", "sale_void", v'.id⟩] _ hid hdei

theorem yields_handleReconcileMpesa {revenueDay : Uuid}
    (hok : ∀ m e n', Q (.mpesa m) ((db.apply (.setMpesa m)).apply (.insertOutbox e)) n') :
    (handleReconcileMpesa env actor id revenueDay now).Yields db Q db n := by
  refine yields_read rfl ?_
  rintro (_ | m)
  · trivial
  dsimp only
  unfold authorizeStation
  split
  swap
  · trivial
  refine yields_read rfl ?_
  rintro (_ | d)
  · trivial
  dsimp only
  split
  · trivial
  rw [yields_lock]
  refine yields_step fun ws r hout ↦ ?_
  obtain ⟨-, rfl, rfl⟩ | ⟨m', hrec, rfl, rfl⟩ := loggedUpdate_eq hout
  · trivial
  · exact hok m' _ _

/-- The callback settles the collection or does nothing; it is always acknowledged. -/
theorem yields_handleMpesaCallback {input : SettleInput} (hno : ∀ n', Q .done db n')
    (hok : ∀ m n', Q .done (db.apply (.setMpesa m)) n') :
    (handleMpesaCallback env input).Yields db Q db n := by
  refine yields_read rfl ?_
  rintro (_ | m)
  · exact hno _
  rw [yields_lock]
  refine yields_step fun ws r hout ↦ ?_
  obtain ⟨-, rfl, rfl⟩ | ⟨m', hset, rfl, rfl⟩ := loggedUpdate_eq hout
  · exact hno _
  · exact hok m' _

end Rules

/-! ## Recording a payment -/

/-- What `PostCharge` has written when it answers: an entry with the amount rounded to cents, or
nothing when it is refused. -/
def ChargeAnswer (amount : Numeric) (ws : List Credit.Write) :
    Except Credit.CreditError Credit.CreditResult → Prop
  | .error _ => ws = []
  | .ok _ => ∃ e, ws = [.insertEntry e] ∧ amount.store 14 2 = some e.amount

theorem answers_postCharge (cenv : Credit.Env) (customer : Uuid) (amount : Numeric) (allow : Bool) :
    (Credit.postCharge cenv customer amount allow).Answers (ChargeAnswer amount) [] := by
  refine Prog.answers_read rfl fun snapshot ↦ ?_
  rcases snapshot with _ | ⟨arBalance, authHeld⟩
  · rfl
  dsimp only
  rw [Prog.answers_lock]
  refine Prog.answers_read rfl fun c ↦ ?_
  rcases c with _ | c
  · rfl
  dsimp only
  split
  · rfl
  refine Prog.answers_step fun committed view n ws r hout ↦ ?_
  obtain ⟨e, -, rfl, rfl⟩ | ⟨-, rfl, rfl⟩ | ⟨e, hins, rfl, rfl⟩ := loggedRow_eq hout
  · rfl
  · rfl
  · obtain ⟨-, -, -, hamt, -⟩ := Credit.insertCharge_eq_some hins
    exact ⟨e, rfl, hamt⟩

/-- A change that touches neither payments nor voids nor revenue days. -/
def Write.Aside : Write → Prop
  | .credit _ | .ledger _ | .insertOutbox _ | .setMpesa _ => True
  | .insertPayment _ | .putVoid _ | .putDay _ => False

/-- A side effect of a payment: the charge has its amount. -/
def Write.SideOf (amount : Numeric) : Write → Prop
  | .credit (.insertEntry e) => amount.store 14 2 = some e.amount
  | .ledger _ | .insertOutbox _ => True
  | _ => False

theorem Write.SideOf.aside {amount : Numeric} {w : Write} (h : w.SideOf amount) : w.Aside := by
  rcases w with p | v | d | m | e | c | l
  · exact h
  · exact h
  · exact h
  all_goals trivial

section Payment

variable {env : Env} {db view : RevenueDb} {n : ℕ} {Q : RevenueResult → RevenueDb → ℕ → Prop}
  {req : PaymentRequest} {next : Txn env}

theorem yields_commitPayment
    (hok : ∀ e, Q (.payment p false) (view.apply (.insertOutbox e)) (m + 1 + 1)) :
    (commitPayment env p).Yields db Q view m := by
  refine yields_step fun ws r hout ↦ ?_
  cases hout
  refine yields_read rfl fun r ↦ ?_
  rcases r with e | _
  · trivial
  · exact hok _

theorem yields_postCreditChargeJournal (amount : Numeric)
    (hnx : ∀ ws n', (∀ w ∈ ws, w.SideOf amount) →
      next.Yields db Q (replay (S := schema env) view ws) n') :
    (postCreditChargeJournal env p actor now next).Yields db Q view m := by
  refine yields_read rfl fun found ↦ ?_
  rcases found with _ | _
  · refine Prog.yields_call (Prog.answers_any _ _) fun ws r n' _ _ ↦ ?_
    have hside : ∀ w ∈ ws.map (ledgerPart env).write, w.SideOf amount := by
      intro w hw
      obtain ⟨v, -, rfl⟩ := mem_map.mp hw
      trivial
    have hnx := hnx _ n' hside
    rcases r with e | a
    · rcases e with _ | _ | _ | _ | _ | _ | _ | _ | _ | _ | _ | _ <;>
        first
        | exact hnx
        | trivial
    · exact hnx
  · exact hnx [] (m + 1) fun w hw ↦ absurd hw not_mem_nil

theorem yields_chargeCustomer (hnx : ∀ ws n', (∀ w ∈ ws, w.SideOf req.amount) →
      next.Yields db Q (replay (S := schema env) view ws) n') :
    (chargeCustomer env req p next).Yields db Q view m := by
  unfold chargeCustomer
  split
  · refine Prog.yields_call (answers_postCharge _ _ _ _) fun ws r n' _ hws ↦ ?_
    rcases r with e | a
    · cases e <;> trivial
    · obtain ⟨e, rfl, he⟩ := hws
      exact yields_postCreditChargeJournal req.amount fun ws' n'' hside ↦
        hnx (.credit (.insertEntry e) :: ws') n'' (forall_mem_cons.mpr ⟨he, hside⟩)
  · exact hnx [] m fun w hw ↦ absurd hw not_mem_nil

theorem yields_record {k : Payment → Bool → Txn env}
    (hrep : ∀ p n', p ∈ db.payments → p.idempotencyKey = input.idempotencyKey →
      (k p true).Yields db Q db n')
    (hnew : ∀ p m, n ≤ m → insertPayment db m input = .ok (some p) →
      (k p false).Yields db Q (db.apply (.insertPayment p)) (m + 1)) :
    (record env input k).Yields db Q db n := by
  -- the insert fails, finds its key taken or adds a row
  have hin : ∀ {next : Option Payment → Txn env} {m : ℕ},
      (insertPayment db m input = .ok none → (next none).Yields db Q db (m + 1)) →
      (∀ p, insertPayment db m input = .ok (some p) →
        (next (some p)).Yields db Q (db.apply (.insertPayment p)) (m + 1)) →
      (Prog.query (S := schema env) (.insertPayment input) (answerRecord env next)).Yields db Q db
        m := by
    intro next m hno hsm
    refine yields_step fun ws r hout ↦ ?_
    obtain ⟨e, -, rfl, rfl⟩ | ⟨hins, rfl, rfl⟩ | ⟨p, hins, rfl, rfl⟩ :=
      loggedRow_eq hout
    · cases e <;> trivial
    · exact hno hins
    · exact hsm p hins
  unfold record
  rcases hkey : input.idempotencyKey with _ | key
  · exact hin (fun _ ↦ trivial) fun p hins ↦ hnew p n le_rfl hins
  · have hexi : ∀ m, (existingPayment env key k).Yields db Q db m := fun m ↦ by
      refine yields_reply rfl fun p hp ↦ ?_
      have hp : db.payments.find? (·.idempotencyKey = some key) = p := hp
      rcases p with _ | p
      · trivial
      · obtain ⟨hmem, hpkey⟩ := key_of_find? hp
        exact hrep p _ hmem (hpkey.trans hkey.symm)
    refine yields_reply rfl fun taken htak ↦ ?_
    have htak : decide (∃ p ∈ db.payments, p.idempotencyKey = some key) = taken := htak
    rcases taken with _ | _
    · exact hin (fun _ ↦ hexi _) fun p hins ↦ hnew p (n + 1) (le_succ n) hins
    · refine hin (fun _ ↦ hexi _) fun p hins ↦ ?_
      obtain ⟨p', hp', hpkey⟩ := of_decide_eq_true htak
      have hfr := (insertPayment_eq_some hins).free (by rw [hkey]; rfl)
      exact absurd (hpkey.trans hkey.symm) (hfr p' hp')

/-- A payment request is refused, or goes on to `Record` on its shift. -/
theorem yields_handleRecordPayment_record
    (hrcd : ∀ shift tenderType key, env.nonNegative req.amount → shift ∈ db.shifts →
      shift.id = req.shiftId →
      (record env (req.toRecord shift tenderType key) (finishPayment env req)).Yields db Q db
        (n + 1)) : (handleRecordPayment env req).Yields db Q db n := by
  unfold handleRecordPayment
  rcases hten : req.tenderType with _ | tender
  · trivial
  dsimp only
  split
  · trivial
  next hacc =>
  split
  · trivial
  rcases resolveIdempotencyKey env req.headerKey req.bodyKey with _ | key
  · trivial
  refine yields_reply rfl fun shift hsh ↦ ?_
  have hsh : db.shifts.find? (·.id = req.shiftId) = shift := hsh
  rcases shift with _ | shift
  · trivial
  obtain ⟨hmem, hid⟩ := key_of_find? hsh
  dsimp only
  unfold authorizeStation
  split
  · exact hrcd shift tender key (by simpa using hacc) hmem hid
  · trivial

structure NewPayment (env : Env) (db : RevenueDb) (req : PaymentRequest) (p : Payment) : Prop where
  accepted : env.nonNegative req.amount
  onShift : ∃ shift ∈ db.shifts, shift.id = req.shiftId ∧ p.shiftId = some shift.id ∧
    p.stationId = shift.stationId
  amount : req.amount.store 14 2 = some p.amount

/-- A payment request is refused, replays the payment of its key, or adds one payment on its shift
with its side effects. -/
theorem yields_handleRecordPayment (hrep : ∀ p n', p ∈ db.payments → Q (.payment p true) db n')
    (hnew : ∀ p ws n', NewPayment env db req p → (∀ w ∈ ws, w.SideOf req.amount) →
      Q (.payment p false) (replay (S := schema env) (db.apply (.insertPayment p)) ws) n') :
    (handleRecordPayment env req).Yields db Q db n := by
  refine yields_handleRecordPayment_record fun shift tender key hacc hmem hid ↦ ?_
  refine yields_record (fun p n' hp _ ↦ hrep p n' hp) fun p m _ hins ↦ ?_
  refine yields_chargeCustomer fun ws n1 hside ↦ yields_commitPayment fun e ↦ ?_
  have hp := insertPayment_eq_some hins
  have hadd := hnew p (ws ++ [.insertOutbox e]) (n1 + 1 + 1)
    ⟨hacc, ⟨shift, hmem, hid, hp.shiftId.trans (congrArg some hid.symm), hp.stationId⟩, hp.amount⟩
    fun w hw ↦ ?_
  · rw [replay_append] at hadd
    exact hadd
  · rcases mem_snoc.mp hw with hw | rfl
    · exact hside w hw
    · trivial

/-- A payment on account is refused, or adds one entry of the customer. -/
theorem yields_handleRecordCustomerPayment {req : CustomerPaymentRequest}
    (hok : ∀ e o m n', env.positive req.amount →
      Credit.insertPayment db.credit m req.customerId req.amount = .ok e →
      Q (.entry e) ((db.apply (.credit (.insertEntry e))).apply (.insertOutbox o)) n') :
    (handleRecordCustomerPayment env req).Yields db Q db n := by
  unfold handleRecordCustomerPayment
  split
  · trivial
  next hacc =>
  refine yields_read rfl ?_
  rintro (_ | c)
  · trivial
  refine yields_step fun ws r hout ↦ ?_
  have hout :
      ((logged Credit.Write.insertEntry
          (Credit.insertPayment db.credit (n + 1) req.customerId req.amount)).1.map Write.credit,
        (logged Credit.Write.insertEntry
          (Credit.insertPayment db.credit (n + 1) req.customerId req.amount)).2) = (ws, r) := hout
  rcases hins : Credit.insertPayment db.credit (n + 1) req.customerId req.amount with err | e <;>
    rw [hins] at hout <;> cases hout
  · trivial
  refine yields_step fun ws r hout ↦ ?_
  cases hout
  exact hok e _ (n + 1) _ (by simpa using hacc) hins

end Payment

end FuelGrid.Revenue
