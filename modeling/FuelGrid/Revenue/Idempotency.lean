import FuelGrid.Accounting.Calls
import FuelGrid.Revenue.Consistency

/-!
# Payments with an idempotency key

Any number of payment requests that carry one idempotency key, interleaved in any way. A request
that finds the key taken writes nothing and answers with the row it finds.
-/

namespace FuelGrid.Revenue

open Sql

/-! ## What a log adds -/

def Write.payment? : Write → Option Payment
  | .insertPayment p => some p
  | _ => none

def Write.charge? : Write → Option Credit.AREntry
  | .credit (.insertEntry e) => some e
  | _ => none

def Write.journalId? : Write → Option Uuid
  | .ledger (.insertEntry e) => some e.id
  | _ => none

def RevenueDb.journalIds (db : RevenueDb) : List Uuid := db.ledger.entries.map (·.id)

section Rows

variable {env : Env} (db : RevenueDb) (ws : List Write)

private theorem payments_replay : (replay (S := schema env) db ws).payments
    = db.payments ++ ws.filterMap Write.payment? := by
  refine replay_rows (S := schema env) RevenueDb.payments Write.payment? (fun db w ↦ ?_) db ws
  rcases w with p | v | d | m | e | w | w
  · rfl
  all_goals exact (append_nil _).symm

private theorem charges_replay : (replay (S := schema env) db ws).credit.entries
    = db.credit.entries ++ ws.filterMap Write.charge? := by
  refine replay_rows (S := schema env) (fun db ↦ db.credit.entries) Write.charge? (fun db w ↦ ?_)
    db ws
  rcases w with p | v | d | m | e | (e | a | s | l) | w
  all_goals first
    | rfl
    | exact (append_nil _).symm

private theorem journalIds_replay : (replay (S := schema env) db ws).journalIds
    = db.journalIds ++ ws.filterMap Write.journalId? := by
  refine replay_rows (S := schema env) RevenueDb.journalIds Write.journalId? (fun db w ↦ ?_) db ws
  rcases w with p | v | d | m | e | w | (e | l | ⟨id, rev⟩ | p | p)
  case ledger.insertEntry => exact map_append
  case ledger.setReversed =>
    -- an entry that is marked keeps its id
    change (db.ledger.entries.map _).map _ = _
    rw [map_map]
    refine (map_congr_left fun e _ ↦ ?_).trans (append_nil _).symm
    rw [comp_apply]
    split <;> rfl
  all_goals exact (append_nil _).symm

end Rows

/-- A log with one payment and no more charges and journal entries than given. -/
structure Adds (p : Payment) (charges entries : ℕ) (log : List Write) : Prop where
  payment : log.filterMap Write.payment? = [p]
  charges : (log.filterMap Write.charge?).length ≤ charges
  entries : (log.filterMap Write.journalId?).length ≤ entries

namespace Adds

variable {p : Payment} {c c' j j' : ℕ} {log ws : List Write}

theorem append (h : Adds p c j log) (hpay : ws.filterMap Write.payment? = [])
    (hchs : c + (ws.filterMap Write.charge?).length ≤ c')
    (hents : j + (ws.filterMap Write.journalId?).length ≤ j') : Adds p c' j' (log ++ ws) := by
  constructor
  · rw [filterMap_append, h.payment, hpay, append_nil]
  · rw [filterMap_append, List.length_append]
    exact (Nat.add_le_add_right h.charges _).trans hchs
  · rw [filterMap_append, List.length_append]
    exact (Nat.add_le_add_right h.entries _).trans hents

private theorem append_credit (h : Adds p 0 0 log) {ws : List Credit.Write} (hws : ws.length ≤ 1) :
    Adds p 1 0 (log ++ ws.map .credit) := by
  refine h.append ?_ ?_ ?_
  · rw [filterMap_map]
    exact filterMap_eq_nil_iff.mpr fun w _ ↦ rfl
  · rw [zero_add]
    exact (List.length_filterMap_le _ _).trans ((List.length_map _).trans_le hws)
  · have hno : ws.filterMap (Write.journalId? ∘ Write.credit) = [] :=
      filterMap_eq_nil_iff.mpr fun w _ ↦ rfl
    rw [zero_add, filterMap_map, hno]
    rfl

/-- Changes of the general ledger add journal entries at most. -/
theorem append_ledger (h : Adds p 1 0 log) {ws : List Accounting.Write}
    (hws : ((ws.map Write.ledger).filterMap Write.journalId?).length ≤ 1) :
    Adds p 1 1 (log ++ ws.map .ledger) := by
  refine h.append ?_ ?_ (by rwa [zero_add])
  · rw [filterMap_map]
    exact filterMap_eq_nil_iff.mpr fun w _ ↦ rfl
  · have hno : ws.filterMap (Write.charge? ∘ Write.ledger) = [] :=
      filterMap_eq_nil_iff.mpr fun w _ ↦ rfl
    rw [filterMap_map, hno]
    rfl

theorem mono (h : Adds p c j log) (hc : c ≤ c') (hj : j ≤ j') : Adds p c' j' log :=
  ⟨h.payment, h.charges.trans hc, h.entries.trans hj⟩

end Adds

section PostEntry

/-- At most one journal entry is inserted, whatever the answer. -/
def OneEntry (ws : List Accounting.Write)
    (_ : Except AccountingError AccountingResult) : Prop :=
  ((ws.map Write.ledger).filterMap Write.journalId?).length ≤ 1

private theorem oneEntry_posted (e : JournalEntry) (lines : List JournalLine)
    (r : Except AccountingError AccountingResult) :
    OneEntry (.insertEntry e :: lines.map .insertLine) r := by
  have hlns : ((lines.map Accounting.Write.insertLine).map Write.ledger).filterMap
      Write.journalId? = [] := by
    rw [map_map, filterMap_map]
    exact filterMap_eq_nil_iff.mpr fun l _ ↦ rfl
  rw [OneEntry, map_cons, List.filterMap_cons, hlns]
  exact le_rfl

end PostEntry

/-! ## The terms of the requests

The unique index makes the second insert of the key wait for the first, so a request that has
inserted its payment holds the key until it ends, and until then no other request changes anything:
all of them need the key to write. -/

section Safety

variable (env : Env) (key : String) (db₀ : RevenueDb) {p : Payment} {next : Txn env}

def KeyFree (db : RevenueDb) : Prop := ∀ p ∈ db.payments, p.idempotencyKey ≠ some key

/-- Nothing has been written since the start, or what one request writes. -/
inductive KeyInv : RevenueDb → Prop
  | start : KeyInv db₀
  | paid {p : Payment} {log : List Write} (hfree : KeyFree key db₀)
      (hkey : p.idempotencyKey = some key) (hlog : Adds p 1 1 log) :
      KeyInv (replay (S := schema env) db₀ log)

/-- Who holds the key sees no change at all, and the payments stay in any case. A request that
writes holds the key, and answers with a payment of the key. -/
def keyContract : Contract (schema env) where
  inv db _ := KeyInv env key db₀ db
  rely l db db' := (.paymentKey key ∈ l.held → db' = db) ∧ db.payments ⊆ db'.payments
  cond _ _ _ := True
  guar l _ _ := l.log = [] ∨ .paymentKey key ∈ l.held
  post a db log := ∃ p replayed, a = .payment p replayed ∧ p.idempotencyKey = some key ∧
    p ∈ (replay (S := schema env) db log).payments
  inv_tick h := h
  rely_refl _ _ := ⟨fun _ ↦ rfl, List.Subset.refl _⟩
  rely_trans h h' := ⟨fun hk ↦ (h'.1 hk).trans (h.1 hk), List.Subset.trans h.2 h'.2⟩

variable {env key db₀} {held : Set LockKey} {log : List Write} {db : RevenueDb} {n : ℕ}
  {req : PaymentRequest} {input : RecordInput}

private theorem eq_of_rely (hhd : .paymentKey key ∈ held) {l : Local (schema env)}
    {db1 db2 : RevenueDb}
    (hsub : held ⊆ l.held) (hr : (keyContract env key db₀).rely l db1 db2) (h : db1 = db) :
    db2 = db := (hr.1 (hsub hhd)).trans h

private theorem safe_existingPayment :
    (keyContract env key db₀).Safe (existingPayment env key (finishPayment env req)) held [] db
      n := by
  refine safe_reply rfl fun db' n' _ _ p hp ↦ ?_
  have hp : db'.payments.find? (·.idempotencyKey = some key) = p := hp
  rcases p with _ | p
  · trivial
  · obtain ⟨hmem, hkey⟩ := key_of_find? hp
    intro db'' n'' _ hr hinv _
    exact ⟨.inl rfl, hinv, p, true, rfl, hkey, hr.2 hmem⟩

/-- Once the payment is in the log nothing moves until the commit. -/
theorem safe_commitPayment (hhd : .paymentKey key ∈ held) (hfr : KeyFree key db)
    (hkey : p.idempotencyKey = some key) (hlog : Adds p 1 1 log) :
    (keyContract env key db₀).Safe (commitPayment env p) held log db n := by
  refine safe_query fun db1 n1 _ hr1 _ _ ws _ hout ↦ ?_
  cases hout
  obtain rfl := hr1.1 hhd
  have hlog' : Adds p 1 1 (log ++ [.insertOutbox ⟨"PaymentRecorded", "payment", p.id⟩]) :=
    hlog.append rfl (le_refl 1) (le_refl 1)
  refine safe_reply rfl fun db2 n2 hr2 _ r _ ↦ ?_
  obtain rfl := hr2.1 hhd
  rcases r with e | _
  · trivial
  intro db3 n3 _ hr3 hinv _
  obtain rfl := hr3.1 hhd
  -- a payment of the key that the others had made would have been found
  rcases hinv with _ | @⟨p', log', -, hkey', hlog''⟩
  swap
  · refine absurd hkey' (hfr p' ?_)
    rw [payments_replay, hlog''.payment]
    exact mem_concat_self
  refine ⟨.inr hhd, .paid hfr hkey hlog', p, false, rfl, hkey, ?_⟩
  rw [payments_replay, hlog'.payment]
  exact mem_concat_self

/-- What the rest of a request may start from once its payment is in the log: the same state, with
more locks and a longer log. -/
def GoesOn (env : Env) (key : String) (db₀ : RevenueDb) (p : Payment) (next : Txn env)
    (held : Set LockKey) (db : RevenueDb) : Prop :=
  ∀ held' log n, held ⊆ held' → Adds p 1 1 log → (keyContract env key db₀).Safe next held' log db n

private theorem safe_postCreditChargeJournal {actor : Uuid} {now : ℤ} (hhd : .paymentKey key ∈ held)
    (hlog : Adds p 1 0 log) (hnx : GoesOn env key db₀ p next held db) :
    (keyContract env key db₀).Safe (postCreditChargeJournal env p actor now next) held log db
      n := by
  refine safe_reply rfl fun db1 n1 hr _ found _ ↦ ?_
  obtain rfl := hr.1 hhd
  rcases found with _ | _
  · refine Contract.safe_call (R := fun db' _ ↦ db' = db1)
      (fun hsub _ ↦ eq_of_rely hhd hsub) rfl
      (Accounting.answers_postCall_of (W := OneEntry) _ now (fun _ ↦ Nat.zero_le 1)
        (fun e lines _ ↦ oneEntry_posted e lines _) fun e _ ↦ oneEntry_posted e.entry e.lines _) ?_
    rintro held' ws r _ n' hsub rfl hws
    have hnx := hnx held' _ n' hsub (hlog.append_ledger hws)
    rcases r with e | a
    · rcases e with _ | _ | _ | _ | _ | _ | _ | _ | _ | _ | _ | _ <;>
        first
        | exact hnx
        | trivial
    · exact hnx
  · exact hnx held log _ subset_rfl (hlog.mono le_rfl zero_le_one)

private theorem safe_chargeCustomer (hhd : .paymentKey key ∈ held) (hlog : Adds p 0 0 log)
    (hnx : GoesOn env key db₀ p next held db) :
    (keyContract env key db₀).Safe (chargeCustomer env req p next) held log db n := by
  have hskip : (keyContract env key db₀).Safe next held log db n :=
    hnx held log n subset_rfl (hlog.mono zero_le_one zero_le_one)
  unfold chargeCustomer
  split
  next customer _ _ =>
    refine Contract.safe_call (R := fun db' _ ↦ db' = db)
      (fun hsub _ ↦ eq_of_rely hhd hsub) rfl (answers_postCharge _ _ _ _) ?_
    rintro held' ws r _ n' hsub rfl hws
    have hlen : ws.length ≤ 1 := by
      rcases r with e | a
      · exact hws.symm ▸ Nat.zero_le 1
      · obtain ⟨e, rfl, -⟩ := hws
        exact le_refl 1
    rcases r with e | a
    · rcases e <;> trivial
    · exact safe_postCreditChargeJournal (hsub hhd) (hlog.append_credit hlen)
        fun hel'' log' n'' hsub' ↦ hnx hel'' log' n'' (hsub.trans hsub')
  · exact hskip

/-- The insert fails, finds the key taken or adds a payment of the key. -/
theorem safe_insertPayment (hinp : input.idempotencyKey = some key)
    {next : Option Payment → Txn env}
    (hno : ∀ db' n', (keyContract env key db₀).Safe (next none) held [] db' n')
    (hsm : ∀ p db' n', (keyContract env key db₀).rely
        ⟨held, [], .query (.insertPayment input) (answerRecord env next)⟩ db db' →
      p.idempotencyKey = some key → KeyFree key db' →
      (keyContract env key db₀).Safe (next (some p)) held [.insertPayment p] db' n') :
    (keyContract env key db₀).Safe (.query (.insertPayment input) (answerRecord env next)) held []
      db n := by
  refine safe_query fun db' n' _ hr _ _ ws r hout ↦ ?_
  obtain ⟨e, -, rfl, rfl⟩ | ⟨-, rfl, rfl⟩ | ⟨p, hins, rfl, rfl⟩ := loggedRow_eq hout
  · rcases e <;> trivial
  · exact hno db' _
  · have hp := insertPayment_eq_some hins
    have hfr := hp.free
    rw [hinp] at hfr
    exact hsm p db' _ hr (hp.idempotencyKey.trans hinp) (hfr rfl)

theorem safe_record (hinp : input.idempotencyKey = some key) :
    (keyContract env key db₀).Safe (record env input (finishPayment env req)) ∅ [] db n := by
  unfold record
  rw [hinp]
  refine safe_reply rfl fun db1 n1 _ _ taken htak ↦ ?_
  have htak : decide (∃ p ∈ db1.payments, p.idempotencyKey = some key) = taken := htak
  rcases taken with _ | _
  · -- the key was free when the statement began, and is waited for
    intro db2 n2 _ _ _ _
    refine safe_insertPayment hinp (fun db' n' ↦ safe_existingPayment) ?_
    intro p db3 n3 _ hkey hfr
    have hhd : LockKey.paymentKey key ∈ insert (LockKey.paymentKey key) (∅ : Set LockKey) :=
      mem_insert _ _
    refine safe_chargeCustomer hhd ⟨rfl, le_refl 0, le_refl 0⟩ ?_
    exact fun held' log' n' hsub hlog ↦ safe_commitPayment (hsub hhd) hfr hkey hlog
  · -- a payment that was there stays, so this insert adds no row
    refine safe_insertPayment hinp (fun db' n' ↦ safe_existingPayment) ?_
    intro p db2 n2 hr _ hfr
    obtain ⟨p', hp', hkey'⟩ := of_decide_eq_true htak
    exact absurd hkey' (hfr p' (hr.2 hp'))

theorem safe_handleRecordPayment
    (hreq : resolveIdempotencyKey env req.headerKey req.bodyKey = .ok (some key)) :
    (keyContract env key db₀).Safe (handleRecordPayment env req) ∅ [] db n := by
  unfold handleRecordPayment
  rcases req.tenderType with _ | tender
  · trivial
  dsimp only
  split
  · trivial
  split
  · trivial
  rw [hreq]
  refine safe_reply rfl ?_
  rintro db1 n1 _ _ (_ | shift) _
  · trivial
  dsimp only
  unfold authorizeStation
  split
  · exact safe_record rfl
  · trivial

/-- All requests carry the key, so what one of them commits is what the others rely on. -/
theorem keyContract_suits {T : Type} :
    (keyContract env key db₀).Suits (fun (_ : State (schema env) T) _ ↦ True) where
  cond _ _ := trivial
  compat {s t a u p} _ _ _ hguar hne hu := by
    rcases hguar with hlog | hhd
    · have hvw : s.view t = s.db := by
        have hlog : s.log t = [] := hlog
        rw [State.view, hlog, replay_nil]
      rw [hvw]
      exact (keyContract env key db₀).rely_refl _ _
    · refine ⟨fun hhd' ↦ absurd (eq_of_held rfl hhd' hhd) hne, ?_⟩
      rw [State.view, payments_replay]
      exact List.subset_append_left _ _

end Safety

/-! ## One payment

The database is either the one the run started from, or that database with the writes of one request
(`KeyInv`): one payment, at most one charge and at most one journal entry. -/

/-- What has happened in a run of requests with the key. -/
structure PaidOnce {env : Env} {T : Type} (key : String) (db₀ : RevenueDb)
    (s : State (schema env) T) : Prop where
  keyed : (s.db.payments.filter (·.idempotencyKey = some key)).length ≤ 1
  payments : ∃ new, s.db.payments = db₀.payments ++ new ∧ new.length ≤ 1
  charges : ∃ new, s.db.credit.entries = db₀.credit.entries ++ new ∧ new.length ≤ 1
  journal : ∃ new, s.db.journalIds = db₀.journalIds ++ new ∧ new.length ≤ 1
  /-- Any two requests that succeed answer with the same payment, which is in the table. -/
  answers : ∀ c ∈ s.commits, ∀ c' ∈ s.commits, ∃ p ∈ s.db.payments, p.idempotencyKey = some key ∧
    (∃ replayed, c.result = .payment p replayed) ∧ ∃ replayed, c'.result = .payment p replayed
  /-- Everything in the database was there before or was written by a request that succeeded. -/
  failures : s.db = replay (S := schema env) db₀ (s.commits.reverse.flatMap (·.writes))

private theorem eq_of_keyed {key : String} {ps : List Payment}
    (h : (ps.filter (·.idempotencyKey = some key)).length ≤ 1) {p q : Payment} (hp : p ∈ ps)
    (hq : q ∈ ps) (hpk : p.idempotencyKey = some key) (hqk : q.idempotencyKey = some key) :
    p = q := by
  have hp : p ∈ ps.filter (·.idempotencyKey = some key) := mem_filter.mpr ⟨hp, by simpa using hpk⟩
  have hq : q ∈ ps.filter (·.idempotencyKey = some key) := mem_filter.mpr ⟨hq, by simpa using hqk⟩
  rcases hps : ps.filter (·.idempotencyKey = some key) with _ | ⟨r, _ | ⟨r', rs⟩⟩
  · rw [hps] at hp
    cases hp
  · rw [hps] at hp hq
    rw [mem_singleton.mp hp, mem_singleton.mp hq]
  · rw [hps] at h
    exact absurd h (by simp)

theorem KeyInv.keyed {env : Env} {key : String} {db₀ db : RevenueDb} (h : KeyInv env key db₀ db)
    (h0 : (db₀.payments.filter (·.idempotencyKey = some key)).length ≤ 1) :
    (db.payments.filter (·.idempotencyKey = some key)).length ≤ 1 := by
  rcases h with _ | ⟨hfr, hkey, hlog⟩
  · exact h0
  · have hnil : db₀.payments.filter (·.idempotencyKey = some key) = [] :=
      filter_eq_nil_iff.mpr fun p hp hpk ↦ hfr p hp (of_decide_eq_true hpk)
    rw [payments_replay, filter_append, hnil, nil_append, hlog.payment]
    exact List.length_filter_le _ _

theorem KeyInv.grows {env : Env} {key : String} {db₀ db : RevenueDb} (h : KeyInv env key db₀ db) :
    (∃ new, db.payments = db₀.payments ++ new ∧ new.length ≤ 1) ∧
      (∃ new, db.credit.entries = db₀.credit.entries ++ new ∧ new.length ≤ 1) ∧
      ∃ new, db.journalIds = db₀.journalIds ++ new ∧ new.length ≤ 1 := by
  rcases h with _ | ⟨-, -, hlog⟩
  · exact ⟨⟨[], (append_nil _).symm, zero_le_one⟩, ⟨[], (append_nil _).symm, zero_le_one⟩,
      [], (append_nil _).symm, zero_le_one⟩
  · refine ⟨⟨_, payments_replay _ _, ?_⟩, ⟨_, charges_replay _ _, hlog.charges⟩,
      _, journalIds_replay _ _, hlog.entries⟩
    rw [hlog.payment]
    exact le_refl 1

/-- Any number of requests with one key, interleaved in any way: at most one payment, one charge and
one journal entry are committed, every success answers with that payment, and what is in the
database comes from the requests that succeeded. -/
theorem paidOnce_of_reach {env : Env} {T : Type} [DecidableEq T] {key : String}
    {reqs : T → PaymentRequest}
    (hkey : ∀ t, resolveIdempotencyKey env (reqs t).headerKey (reqs t).bodyKey = .ok (some key))
    {db₀ : RevenueDb} {n₀ : ℕ}
    (hunique : (db₀.payments.filter (·.idempotencyKey = some key)).length ≤ 1)
    {s : State (schema env) T}
    (h : Reach (fun _ _ ↦ True)
      (State.init db₀ n₀ fun t ↦ handleRecordPayment env (reqs t)) s) :
    PaidOnce key db₀ s := by
  have hsui : (keyContract env key db₀).Suits (fun (_ : State (schema env) T) _ ↦ True) :=
    keyContract_suits
  obtain ⟨hinv, hpst⟩ := Contract.sound hsui .start
    (fun t ↦ safe_handleRecordPayment (hkey t)) h
  have hkd := KeyInv.keyed hinv hunique
  -- a payment that a request answered with is still there
  have hkt : ∀ c ∈ s.commits, c.after.payments ⊆ s.db.payments := by
    refine h.kept_since (R := fun db db' : RevenueDb ↦ db.payments ⊆ db'.payments)
      (fun _ ↦ List.Subset.refl _) (fun h h' ↦ List.Subset.trans h h') fun c _ ↦ ?_
    rw [Commit.after, payments_replay]
    exact List.subset_append_left _ _
  obtain ⟨hpays, hchs, hjou⟩ := KeyInv.grows hinv
  refine ⟨hkd, hpays, hchs, hjou, fun c hc c' hc' ↦ ?_, h.db_eq_replay⟩
  obtain ⟨p, r, hres, hpk, hp⟩ := hpst c hc
  obtain ⟨p', r', hres', hpk', hp'⟩ := hpst c' hc'
  obtain rfl := eq_of_keyed hkd (hkt c hc hp) (hkt c' hc' hp') hpk hpk'
  exact ⟨p, hkt c hc hp, hpk, ⟨r, hres⟩, r', hres'⟩

/-- A credit tender of 40.00 that the client sends twice. -/
def creditTender (_ : Bool) : PaymentRequest :=
  { pay 40 with tenderType := some .credit, customerId := some 1, headerKey := "till-7-0042" }

/-- The second request waits for the first and answers with its payment. -/
theorem paidOnce_of_reach_retry :
    ∃ s : State (schema .plain) Bool,
      Reach (fun _ _ ↦ True)
        (State.init oneSale 1 fun t ↦ handleRecordPayment .plain (creditTender t)) s ∧
      s.commits.length = 2 ∧ s.db.payments.length = 1 ∧ s.db.credit.entries.length = 1 ∧
      s.db.ledger.entries.length = 1 ∧ PaidOnce "till-7-0042" oneSale s := by
  refine exists_and_imp (fun s ↦ s.commits.length = 2 ∧ s.db.payments.length = 1 ∧
    s.db.credit.entries.length = 1 ∧
      s.db.ledger.entries.length = 1)
    (exists_of_runs (turns [(false, 4), (true, 2), (false, 15), (true, 4)]) (by decide +kernel)) ?_
  rintro _ hrch ⟨hcom, hpays, hchs, hents⟩
  have hun : (oneSale.payments.filter (·.idempotencyKey = some "till-7-0042")).length ≤ 1 :=
    Nat.zero_le 1
  exact ⟨hcom, hpays, hchs, hents,
    paidOnce_of_reach (fun _ ↦ rfl) hun hrch⟩

end FuelGrid.Revenue
