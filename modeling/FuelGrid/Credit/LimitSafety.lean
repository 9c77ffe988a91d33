import FuelGrid.Credit.Operations
import FuelGrid.Sql.RelyGuarantee
import Mathlib.Algebra.Order.BigOperators.Group.List

/-!
# Credit-limit safety

After a charge or an approval commits, the customer's balance plus the live holds should be within
the credit limit, whatever else runs.

`RequestAuthorization` locks the customer before it reads the exposure, and is safe. `PostCharge` is
not: it sums on the snapshot of the statement that then waits for the lock, and what was granted in
between is missing from the sums (`not_withinLimit_of_stale_charge`).
-/

namespace FuelGrid.Credit

open Sql

variable {env : Env} {customer : Uuid} {amount : Numeric} {v : Money}

/-! ## Exposure under writes

What can raise the exposure is a charge or an approval, and both are written under the row lock of
the customer; payments, fulfilments, cancellations and expiry only lower it. So an exposure read
under the lock is an upper bound until the commit. -/

/-- A charge to the customer or an approval for them. -/
def Write.Grants (customer : Uuid) : Write → Prop
  | .insertEntry e => e.customerId = customer ∧ e.entryType = .charge
  | .insertAuthorization a => a.customerId = customer
  | .setStatus _ _ _ => False
  | .setCreditLimit _ _ => False

/-- A change that keeps the customer's amounts finite and the holds non-negative, and that raises
the balance by charges only. -/
def Write.Fine (customer : Uuid) : Write → Prop
  | .insertEntry e => e.customerId = customer →
      e.amount ≠ ⊤ ∧ (e.entryType ≠ .charge → e.amount ≤ 0)
  | .insertAuthorization a => a.customerId = customer →
      a.approvedAmount ≠ ⊤ ∧ 0 ≤ a.approvedAmount
  | .setStatus _ status _ => status ≠ .approved
  | .setCreditLimit c limit => c = customer → limit ≠ ⊤

def Write.authorized : Write → Option Authorization
  | .insertAuthorization a => some a
  | _ => none

/-- `customers.credit_limit` -/
def CreditDb.limitOf (db : CreditDb) (customer : Uuid) : Money :=
  ((db.customer customer).map (·.creditLimit)).getD 0

/-- The customer exists with a finite limit, and their amounts are finite. -/
structure CreditInv (customer : Uuid) (db : CreditDb) : Prop where
  exist : (db.customer customer).isSome
  limit : db.limitOf customer ≠ ⊤
  entries : ∀ e ∈ db.entries, e.customerId = customer → e.amount ≠ ⊤
  holds : ∀ a ∈ db.authorizations, a.customerId = customer →
    a.approvedAmount ≠ ⊤ ∧ 0 ≤ a.approvedAmount

@[simp] theorem settle_customerId (id : Uuid) (st : AuthStatus) (cb : Option Uuid)
    (a : Authorization) : (a.settle id st cb).customerId = a.customerId := by
  unfold Authorization.settle
  split <;> rfl

@[simp] theorem settle_id (id : Uuid) (st : AuthStatus) (cb : Option Uuid) (a : Authorization) :
    (a.settle id st cb).id = a.id := by
  unfold Authorization.settle
  split <;> rfl

@[simp] theorem settle_approvedAmount (id : Uuid) (st : AuthStatus) (cb : Option Uuid)
    (a : Authorization) : (a.settle id st cb).approvedAmount = a.approvedAmount := by
  unfold Authorization.settle
  split <;> rfl

private theorem limitOf_setCreditLimit {db : CreditDb} {limit : Money}
    (h : (db.customer customer).isSome) (c : Uuid) :
    (db.apply (.setCreditLimit c limit)).limitOf customer
      = if c = customer then limit else db.limitOf customer := by
  obtain ⟨row, hrow⟩ := isSome_iff_exists.mp h
  by_cases hc : customer = c
  · simp [CreditDb.limitOf, CreditDb.apply, hrow, hc.symm]
  · simp [CreditDb.limitOf, CreditDb.apply, hc, Ne.symm hc]

theorem CreditInv.apply {db : CreditDb} {w : Write} (h : CreditInv customer db)
    (hw : w.Fine customer) : CreditInv customer (db.apply w) := by
  cases w with
  | insertEntry e =>
    refine ⟨h.exist, h.limit, fun e' he' ht ↦ ?_, h.holds⟩
    rcases mem_snoc.mp he' with hold | rfl
    · exact h.entries e' hold ht
    · exact (hw ht).1
  | insertAuthorization a =>
    refine ⟨h.exist, h.limit, h.entries, fun a' ha' ht ↦ ?_⟩
    rcases mem_snoc.mp ha' with hold | rfl
    · exact h.holds a' hold ht
    · exact hw ht
  | setStatus id st cb =>
    refine ⟨h.exist, h.limit, h.entries, fun a' ha' ht ↦ ?_⟩
    obtain ⟨a, ha, rfl⟩ := mem_map.mp ha'
    rw [settle_customerId] at ht
    rw [settle_approvedAmount]
    exact h.holds a ha ht
  | setCreditLimit c limit =>
    refine ⟨?_, ?_, h.entries, h.holds⟩
    · have hex := h.exist
      by_cases hc : customer = c
      · subst hc
        simpa [CreditDb.apply] using hex
      · simpa [CreditDb.apply, hc] using hex
    · rw [limitOf_setCreditLimit h.exist]
      split
      next hc => exact hw hc
      · exact h.limit

theorem CreditInv.replay {log : List Write} {db : CreditDb} (h : CreditInv customer db)
    (hlog : ∀ w ∈ log, w.Fine customer) :
    CreditInv customer (Sql.replay (S := schema env) db log) := by
  induction log generalizing db with
  | nil => exact h
  | cons w ws ih =>
    exact ih (h.apply (hlog w mem_cons_self)) fun w' hw' ↦
      hlog w' (mem_cons_of_mem w hw')

theorem arBalance_insertEntry (db : CreditDb) (e : AREntry) :
    (db.apply (.insertEntry e)).arBalance customer
      = db.arBalance customer + if e.customerId = customer then e.amount else 0 := by
  by_cases h : e.customerId = customer <;> simp [CreditDb.arBalance, CreditDb.apply, h]

/-- No update of an authorization changes whether it satisfies `p`. -/
def Fixed (p : Authorization → Bool) : Prop :=
  ∀ id st cb a, p (Authorization.settle id st cb a) = p a

/-- The approved amounts of the customer's authorizations in a status of `c` that satisfy `p`. -/
def CreditDb.weight (db : CreditDb) (customer : Uuid) (c : AuthStatus → Prop) [DecidablePred c]
    (p : Authorization → Bool) : Money :=
  ((db.authorizations.filter fun a ↦
    a.customerId = customer ∧ c a.status ∧ p a).map (·.approvedAmount)).sum

theorem held_eq_weight (db : CreditDb) (p : Authorization → Bool) :
    db.held customer p = db.weight customer (· = .approved) p := rfl

section Weight

variable {c : AuthStatus → Prop} [DecidablePred c] {p q : Authorization → Bool} {id : Uuid}
  {st : AuthStatus} {cb : Option Uuid}

private theorem weight_insertAuthorization (db : CreditDb) (a : Authorization)
    (p : Authorization → Bool) :
    (db.apply (.insertAuthorization a)).weight customer c p = db.weight customer c p +
      if a.customerId = customer ∧ c a.status ∧ p a then a.approvedAmount else 0 := by
  by_cases h : a.customerId = customer ∧ c a.status ∧ p a
  · simp [CreditDb.weight, CreditDb.apply, h]
  · simp only [CreditDb.weight, CreditDb.apply, filter_append, h, if_false, add_zero]
    simp [h]

private theorem weight_settle (db : CreditDb) (hp : Fixed p) :
    (db.apply (.setStatus id st cb)).weight customer c p
      = ((db.authorizations.filter fun a ↦ a.customerId = customer ∧
          c (a.settle id st cb).status ∧ p a).map (·.approvedAmount)).sum := by
  have hamt : ((·.approvedAmount) ∘ Authorization.settle id st cb) = (·.approvedAmount) :=
    funext fun a ↦ settle_approvedAmount id st cb a
  rw [CreditDb.weight, CreditDb.apply, filter_map, map_map, hamt]
  congr 2
  refine filter_congr fun a _ ↦ ?_
  simp only [comp_apply, settle_customerId, hp id st cb a]

private theorem weight_setStatus (db : CreditDb) (hst : ¬c st) (hp : Fixed p) :
    (db.apply (.setStatus id st cb)).weight customer c p
      = db.weight customer c fun a ↦ p a && decide (a.id ≠ id) := by
  rw [weight_settle db hp, CreditDb.weight]
  congr 2
  refine filter_congr fun a _ ↦ ?_
  by_cases ha : a.id = id
  · simp [Authorization.settle, hst, ha]
  · simp [Authorization.settle, ha]

private theorem weight_mono {db : CreditDb}
    (h : ∀ a ∈ db.authorizations, a.customerId = customer → 0 ≤ a.approvedAmount)
    (hpq : ∀ a, p a → q a) : db.weight customer c p ≤ db.weight customer c q := by
  have hsub : ∀ a : Authorization, decide (a.customerId = customer ∧ c a.status ∧ p a) →
      decide (a.customerId = customer ∧ c a.status ∧ q a) := fun a ha ↦ by
    obtain ⟨hc, hs, hp⟩ := of_decide_eq_true ha
    exact decide_eq_true ⟨hc, hs, hpq a hp⟩
  refine ((List.monotone_filter_right _ hsub).map _).sum_le_sum fun m hm ↦ ?_
  obtain ⟨a, ha, rfl⟩ := mem_map.mp hm
  obtain ⟨hmem, hq⟩ := mem_filter.mp ha
  exact h a hmem (of_decide_eq_true hq).1

end Weight

/-- A property of the columns of an authorization that no update touches. -/
def keyed (p : Uuid → Option ℤ → Bool) (a : Authorization) : Bool := p a.id a.expiryAt

theorem fixed_keyed (p : Uuid → Option ℤ → Bool) : Fixed (keyed p) := fun id st cb a ↦ by
  unfold keyed Authorization.settle
  split <;> rfl

theorem CreditInv.held_mono {db : CreditDb} (h : CreditInv customer db)
    {p q : Authorization → Bool} (hpq : ∀ a, p a → q a) :
    db.held customer p ≤ db.held customer q := by
  rw [held_eq_weight, held_eq_weight]
  exact weight_mono (fun a ha hc ↦ (h.holds a ha hc).2) hpq

theorem CreditInv.exposure_apply_le {db : CreditDb} {w : Write} (h : CreditInv customer db)
    (hfine : w.Fine customer) (hno : ¬w.Grants customer) (p : Uuid → Option ℤ → Bool) :
    (db.apply w).exposure customer (keyed p) ≤ db.exposure customer (keyed p) := by
  unfold CreditDb.exposure
  cases w with
  | insertEntry e =>
    rw [arBalance_insertEntry]
    refine add_le_add_left ?_ _
    split
    next hc =>
      have hpay : e.amount ≤ 0 := (hfine hc).2 fun hch ↦ hno ⟨hc, hch⟩
      exact add_le_of_nonpos_right hpay
    · rw [add_zero]
  | insertAuthorization a =>
    rw [held_eq_weight, weight_insertAuthorization, if_neg fun hc ↦ hno hc.1, add_zero]
    rfl
  | setStatus id st cb =>
    rw [held_eq_weight, weight_setStatus (c := (· = .approved)) db hfine (fixed_keyed p)]
    refine add_le_add_right (h.held_mono fun a ha ↦ ?_) _
    rw [Bool.and_eq_true] at ha
    exact ha.1
  | setCreditLimit c limit => rfl

theorem CreditInv.exposure_replay_le {log : List Write} {db : CreditDb}
    (h : CreditInv customer db) (hfine : ∀ w ∈ log, w.Fine customer)
    (hno : ∀ w ∈ log, ¬w.Grants customer) (p : Uuid → Option ℤ → Bool) :
    (Sql.replay (S := schema env) db log).exposure customer (keyed p)
      ≤ db.exposure customer (keyed p) := by
  induction log generalizing db with
  | nil => exact le_rfl
  | cons w ws ih =>
    rw [replay_cons]
    calc _ ≤ (db.apply w).exposure customer (keyed p) :=
          ih (h.apply (hfine w mem_cons_self))
            (fun w' hw' ↦ hfine w' (mem_cons_of_mem w hw'))
            fun w' hw' ↦ hno w' (mem_cons_of_mem w hw')
      _ ≤ db.exposure customer (keyed p) :=
          h.exposure_apply_le (hfine w mem_cons_self) (hno w mem_cons_self) p

/-- The ids of the authorizations that a log settles. -/
def settled : List Write → List Uuid
  | [] => []
  | .setStatus id _ _ :: ws => id :: settled ws
  | _ :: ws => settled ws

theorem weight_settled {log : List Write} {db : CreditDb} {c : AuthStatus → Prop} [DecidablePred c]
    {p : Authorization → Bool}
    (hlog : ∀ w ∈ log, ∃ id st cb, w = .setStatus id st cb ∧ ¬c st) (hp : Fixed p) :
    (Sql.replay (S := schema env) db log).weight customer c p
      = db.weight customer c fun a ↦ p a && decide (a.id ∉ settled log) := by
  induction log generalizing db with
  | nil => simp [settled, replay]
  | cons w ws ih =>
    obtain ⟨id, st, cb, rfl, hst⟩ := hlog w mem_cons_self
    rw [replay_cons, ih fun w' hw' ↦ hlog w' (mem_cons_of_mem _ hw'),
      weight_setStatus db hst fun id st cb a ↦ by simp only [hp id st cb a, settle_id]]
    congr 1
    funext a
    by_cases ha : a.id = id <;> simp [settled, ha]

private theorem exposure_settled {log : List Write} {db : CreditDb}
    (hlog : ∀ w ∈ log, ∃ id st cb, w = .setStatus id st cb ∧ st ≠ .approved)
    (p : Uuid → Option ℤ → Bool) :
    (Sql.replay (S := schema env) db log).exposure customer (keyed p)
      = db.exposure customer (keyed fun i t ↦ p i t && decide (i ∉ settled log)) := by
  have hbal : (Sql.replay (S := schema env) db log).arBalance customer = db.arBalance customer := by
    induction log generalizing db with
    | nil => rfl
    | cons w ws ih =>
      obtain ⟨id, st, cb, rfl, -⟩ := hlog w mem_cons_self
      exact ih fun w' hw' ↦ hlog w' (mem_cons_of_mem _ hw')
  rw [CreditDb.exposure, hbal, held_eq_weight, weight_settled hlog (fixed_keyed p)]
  rfl

/-! ## Executing a request

These rules hold for any contract: what a transaction knows while it decides is up to it. -/

section Request

variable {env : Env} {K : Contract (schema env)} {held : Set LockKey} {log : List Write}
  {db : CreditDb} {n : ℕ} {input : AuthRequest} {now expiry : ℤ} {override : Bool}

private theorem safe_lockAll {ids : List Uuid} {next : Txn env}
    (hnx : ∀ {held' db' n'}, held ⊆ held' → (∀ id ∈ ids, .authorization id ∈ held') →
      K.Safe next held' log db' n') : K.Safe (lockAll env ids next) held log db n := by
  induction ids generalizing held db n with
  | nil => exact hnx le_rfl nofun
  | cons id ids ih =>
    intro db' n' _ _ _ _
    refine ih fun hsub hids ↦ hnx ((subset_insert _ _).trans hsub) fun id' hid' ↦ ?_
    rcases mem_cons.mp hid' with rfl | hid'
    · exact hsub (.inl rfl)
    · exact hids id' hid'

/-- The log consists of expired holds, whose rows are locked. -/
def Expires (held : Set LockKey) (log : List Write) : Prop :=
  ∀ w ∈ log, ∃ id cb, w = .setStatus id .expired cb ∧ .authorization id ∈ held

private theorem safe_authorize
    (hden : ∀ {held' log db n}, held ⊆ held' → Expires held' log → ∀ a,
      K.Safe (.commit a) held' log db n)
    (hdec : ∀ {held' log db n pos}, held ⊆ held' → Expires held' log → K.inv db n →
      creditPosition (replay (S := schema env) db log) input.customerId now = some pos →
      K.Safe (decideAuthorization env input now expiry override pos) held' log db (n + 1)) :
    K.Safe (authorize env input now expiry override) held [] db n := by
  refine safe_reply rfl fun db1 n1 _ _ ids _ ↦ ?_
  refine safe_lockAll fun {held' db2 n2} hsub hids ↦ ?_
  refine safe_query fun db3 n3 _ _ _ _ ws r hout ↦ ?_
  have hexp : Expires held' ([] ++ ws) := fun w hw ↦ by
    obtain rfl : _ = ws := congrArg Prod.fst hout
    obtain ⟨a, ha, rfl⟩ := mem_map.mp hw
    have hmem := of_decide_eq_true (mem_filter.mp ha).2
    exact ⟨a.id, a.consumedBy, rfl, hids a.id hmem.1⟩
  refine safe_reply rfl fun db4 n4 _ hinv4 pos hpos ↦ ?_
  cases pos with
  | none => exact hden hsub hexp _
  | some pos => exact hdec hsub hexp hinv4 hpos

/-- Execute the decision, with a fact `A` that the others keep. -/
theorem safe_decideAuthorization {pos : CreditPosition} {A : CreditDb → Prop}
    (hstb : ∀ {q next db db' n}, A db → K.rely ⟨held, log, .query q next⟩ db db' → K.inv db' n →
      A db')
    (hden : ∀ {db n}, A db → ∀ a, K.Safe (.commit a) held log db n)
    (happ : ∀ {db n}, A db → (override = false → input.requestedAmount ≤ .ofUnits 2 pos.available ∧
      violatedPeriod env (replay (S := schema env) db log) input now = none) →
      K.Safe (approve env input now expiry) held log db n) (h : A db) :
    K.Safe (decideAuthorization env input now expiry override pos) held log db n := by
  have hdeny : ∀ {db n code detail}, A db → K.Safe (deny env input code detail) held log db n := by
    intro db n code detail h
    unfold deny
    split
    · exact hden h _
    · trivial
  have hche : ∀ {db n}, A db → K.Safe (checkCredit env input now expiry pos) held log db n := by
    intro db n h
    unfold checkCredit
    split
    next hava =>
      refine safe_reply rfl fun db1 n1 hr hinv period hper ↦ ?_
      cases period with
      | some period => exact hdeny (hstb h hr hinv)
      | none => exact happ (hstb h hr hinv) fun _ ↦ ⟨hava, hper⟩
    · exact hdeny h
  unfold decideAuthorization
  split
  next hove => exact happ h fun hno ↦ absurd (hove.symm.trans hno) (by decide)
  split
  · exact hdeny h
  split
  · exact hdeny h
  split
  · exact hche h
  · refine safe_reply rfl fun db1 n1 hr hinv status _ ↦ ?_
    cases status with
    | none => exact hche (hstb h hr hinv)
    | some status =>
      dsimp only
      split
      · exact hdeny (hstb h hr hinv)
      · exact hche (hstb h hr hinv)

end Request

/-! ## The contract

The contract gives the charge what it lacks, through the window from its snapshot to its lock. One
more thing breaks the limit without any race: a payment of `NaN`, which passes the handler's check,
makes the balance `NaN` and the available credit `NaN`, and every request is at most that. -/

variable (env customer)

/-- A charge that has taken its snapshot and waits for the lock. -/
def InChargeWindow : Txn env → Prop
  | .lock (.customer c) (.query (.lockedCustomer _) _) => c = customer
  | _ => False

instance (p : Txn env) : Decidable (InChargeWindow env customer p) := by
  unfold InChargeWindow
  split <;> infer_instance

def nextPayment : Txn env → Option (Uuid × Numeric)
  | .query (.insertPayment c amount) _ => some (c, amount)
  | _ => none

def nextLimit : Txn env → Option (Uuid × Numeric)
  | .query (.setCreditLimit c limit) _ => some (c, limit)
  | _ => none

/-- The transaction does not pay `NaN` into the customer's account next. -/
def PaysNumber (l : Local (schema env)) : Prop :=
  ∀ x ∈ nextPayment env l.prog, x.1 = customer → x.2 ≠ .nan
  deriving Decidable

/-- The transaction does not lower the customer's limit next, and leaves it finite. -/
def KeepsLimit (l : Local (schema env)) (db : CreditDb) : Prop :=
  ∀ x ∈ nextLimit env l.prog, x.1 = customer → ∀ v ∈ x.2.store 14 2,
    v ≠ ⊤ ∧ (replay (S := schema env) db l.log).limitOf customer ≤ v
  deriving Decidable

structure CreditRely (l : Local (schema env)) (db db' : CreditDb) : Prop where
  limit_le : db.limitOf customer ≤ db'.limitOf customer
  limit_eq : .customer customer ∈ l.held → db'.limitOf customer = db.limitOf customer
  /-- Nothing is granted past the lock, or in the window of a charge. -/
  exposure_le : .customer customer ∈ l.held ∨ InChargeWindow env customer l.prog →
    ∀ p, db'.exposure customer (keyed p) ≤ db.exposure customer (keyed p)

/-- What a transaction has done so far. -/
structure CreditLog (held : Set LockKey) (log : List Write) (db : CreditDb) : Prop where
  fine : ∀ w ∈ log, w.Fine customer
  granted : ∀ w ∈ log, w.Grants customer → .customer customer ∈ held
  limits : ∀ m, .setCreditLimit customer m ∈ log →
    .customer customer ∈ held ∧ db.limitOf customer ≤ m

/-- After the log is committed the customer is within the limit at the instant `now`, unless `now`
is before the creation of an authorization of the log. -/
def WithinLimitAt (db : CreditDb) (log : List Write) (now : ℤ) : Prop :=
  (∀ w ∈ log, ∀ a ∈ w.authorized, a.customerId = customer → a.createdAt ≤ now) →
    (replay (S := schema env) db log).exposure customer (live now)
      ≤ (replay (S := schema env) db log).limitOf customer
  deriving Decidable

def WithinLimit (db : CreditDb) (log : List Write) : Prop :=
  ∀ now, WithinLimitAt env customer db log now

/-- Charges, approvals and everything that lowers the exposure, with the exclusion that the charge
needs. -/
def creditContract : Contract (schema env) where
  inv db _ := CreditInv customer db
  rely := CreditRely env customer
  cond l db _ := PaysNumber env customer l ∧ KeepsLimit env customer l db
  guar l db _ := CreditLog customer l.held l.log db
  post _ db log := (∃ w ∈ log, w.Grants customer) → WithinLimit env customer db log
  inv_tick h := h
  rely_refl _ _ := ⟨le_rfl, fun _ ↦ rfl, fun _ _ ↦ le_rfl⟩
  rely_trans h h' := ⟨h.limit_le.trans h'.limit_le,
    fun hk ↦ (h'.limit_eq hk).trans (h.limit_eq hk),
    fun hk p ↦ (h'.exposure_le hk p).trans (h.exposure_le hk p)⟩

variable {env customer} {held : Set LockKey} {log : List Write} {db db' : CreditDb} {n n' : ℕ}
  {l : Local (schema env)} {now expiry : ℤ} {pos : CreditPosition} {input : AuthRequest}

theorem CreditLog.nil : CreditLog customer held [] db :=
  ⟨by simp, by simp, by simp⟩

theorem CreditLog.mono (h : CreditLog customer held log db) (hl : l.held = held)
    (hr : CreditRely env customer l db db') : CreditLog customer held log db' where
  fine := h.fine
  granted := h.granted
  limits m hm := by
    obtain ⟨hk, hle⟩ := h.limits m hm
    exact ⟨hk, (hr.limit_eq (hl ▸ hk)).trans_le hle⟩

theorem CreditLog.append {ws : List Write} (h : CreditLog customer held log db)
    (h' : CreditLog customer held ws db) : CreditLog customer held (log ++ ws) db where
  fine w hw := (mem_append.mp hw).elim (h.fine w) (h'.fine w)
  granted w hw := (mem_append.mp hw).elim (h.granted w) (h'.granted w)
  limits m hm := (mem_append.mp hm).elim (h.limits m) (h'.limits m)

private theorem limitOf_replay (env : Env) (hinv : CreditInv customer db)
    (hfine : ∀ w ∈ log, w.Fine customer) :
    (replay (S := schema env) db log).limitOf customer = db.limitOf customer ∨
      ∃ m, .setCreditLimit customer m ∈ log ∧
        (replay (S := schema env) db log).limitOf customer = m := by
  induction log generalizing db with
  | nil => exact .inl rfl
  | cons w ws ih =>
    have hst := ih (hinv.apply (hfine w mem_cons_self)) fun w' hw' ↦
      hfine w' (mem_cons_of_mem w hw')
    rw [replay_cons]
    rcases hst with hsm | ⟨m, hm, heq⟩
    · rw [hsm]
      cases w with
      | setCreditLimit c m =>
        rw [limitOf_setCreditLimit hinv.exist]
        split
        next hc => exact .inr ⟨m, hc ▸ mem_cons_self, rfl⟩
        · exact .inl rfl
      | insertEntry e => exact .inl rfl
      | insertAuthorization a => exact .inl rfl
      | setStatus id st cb => exact .inl rfl
    · exact .inr ⟨m, mem_cons_of_mem w hm, heq⟩

/-! ## Programs that grant nothing -/

/-- Statements that do not grant the customer anything: they charge or authorize someone else, pay
a positive amount, and change the limit under the lock. -/
def Harmless (customer : Uuid) (held : Set LockKey) : Query → Prop
  | .insertCharge input => input.customerId ≠ customer
  | .insertAuthorization input _ _ => input.customerId ≠ customer
  | .insertPayment _ amount => ¬amount ≤ .finite 0
  | .setCreditLimit c _ => c = customer → .customer customer ∈ held
  | _ => True

private theorem store_neg_nonpos (hpos : ¬amount ≤ .finite 0) (hnum : amount ≠ .nan)
    (h : (-amount).store 14 2 = some v) : v ≠ ⊤ ∧ v ≤ 0 := by
  cases amount with
  | nan => exact absurd rfl hnum
  | infinity b => cases h
  | finite q =>
    have hq : 0 < q := not_le.mp hpos
    obtain ⟨u, hu, rfl⟩ := map_eq_some_iff.mp h
    refine ⟨WithTop.coe_ne_top, ?_⟩
    have hle : u ≤ 0 := store_le (n := 0) (by rw [Int.cast_zero, zero_div]; linarith) hu
    exact_mod_cast hle

private theorem store_pos_nonneg (hpos : ¬amount ≤ .finite 0) (h : amount.store 14 2 = some v) :
    0 ≤ v := by
  by_cases hnan : amount = .nan
  · rw [hnan] at h
    rw [← some.inj h]
    exact le_top
  · obtain ⟨q, u, rfl, hu, rfl⟩ := Numeric.store_eq_some hnan h
    have hu' : 0 ≤ u := store_nonneg (not_le.mp hpos).le hu
    exact_mod_cast hu'

theorem CreditLog.limit_le_view (h : CreditLog customer held log db)
    (hinv : CreditInv customer db) :
    db.limitOf customer ≤ (replay (S := schema env) db log).limitOf customer := by
  rcases limitOf_replay env hinv h.fine with hsm | ⟨m, hm, heq⟩
  · exact hsm.ge
  · rw [heq]
    exact (h.limits m hm).2

private theorem harmless_exec {q : Query} {next : Reply q → Txn env} (hq : Harmless customer held q)
    (h : CreditLog customer held log db) (hinv : CreditInv customer db)
    (hpays : PaysNumber env customer ⟨held, log, .query q next⟩)
    (hkp : KeepsLimit env customer ⟨held, log, .query q next⟩ db) {ws : List Write}
    (hws : ws = (exec env q db (replay (S := schema env) db log) n).1) :
    CreditLog customer held ws db ∧ ∀ w ∈ ws, ¬w.Grants customer := by
  -- it is enough to look at one logged write at a time
  suffices hone : ∀ w ∈ ws, w.Fine customer ∧ ¬w.Grants customer ∧
      ∀ m, w = .setCreditLimit customer m → .customer customer ∈ held ∧ db.limitOf customer ≤ m by
    exact ⟨⟨fun w hw ↦ (hone w hw).1, fun w hw hg ↦ absurd hg (hone w hw).2.1,
      fun m hm ↦ (hone _ hm).2.2 m rfl⟩, fun w hw ↦ (hone w hw).2.1⟩
  subst hws
  intro w hw
  cases q with
  | insertCharge input =>
    obtain ⟨e, he, rfl⟩ := mem_loggedRow hw
    have hc : e.customerId ≠ customer := (insertCharge_eq_some he).2.1 ▸ hq
    exact ⟨fun hc' ↦ absurd hc' hc, fun hg ↦ hc hg.1, nofun⟩
  | insertAuthorization input now expiry =>
    obtain ⟨a, ha, rfl⟩ := mem_logged hw
    have hc : a.customerId ≠ customer := (insertAuthorization_eq_ok ha).1 ▸ hq
    exact ⟨fun hc' ↦ absurd hc' hc, fun hg ↦ hc hg, nofun⟩
  | insertPayment c amount =>
    obtain ⟨e, he, rfl⟩ := mem_logged hw
    obtain ⟨hc, hty, hamt, -⟩ := insertPayment_eq_ok he
    refine ⟨fun hc' ↦ ?_, fun hg ↦ ?_, nofun⟩
    · have hnum := hpays _ rfl (hc.symm.trans hc')
      exact ⟨(store_neg_nonpos hq hnum hamt).1, fun _ ↦ (store_neg_nonpos hq hnum hamt).2⟩
    · exact absurd (hty.symm.trans hg.2) (by decide)
  | expire ids now =>
    obtain ⟨a, -, rfl⟩ := mem_map.mp hw
    exact ⟨nofun, id, nofun⟩
  | fulfill i sale =>
    obtain ⟨a, ha, rfl⟩ := mem_loggedRow hw
    refine ⟨?_, id, nofun⟩
    obtain ⟨-, -, -, -, rfl⟩ := fulfill_eq_some ha
    exact nofun
  | close i closing =>
    obtain ⟨a, ha, rfl⟩ := map_eq_some_iff.mp (mem_toList.mp hw)
    refine ⟨?_, id, nofun⟩
    rcases (close_eq_some ha).2.2 with hst | hst <;> exact hst ▸ nofun
  | setCreditLimit c limit =>
    obtain ⟨row, hrow, rfl⟩ := mem_loggedRow hw
    have hsd := setCreditLimit_eq_some hrow
    refine ⟨fun hc ↦ (hkp _ rfl hc _ hsd).1, id, fun m hm ↦ ?_⟩
    obtain ⟨hc, rfl⟩ := Write.setCreditLimit.inj hm
    exact ⟨hq hc, (h.limit_le_view hinv).trans (hkp _ rfl hc _ hsd).2⟩
  | _ => cases hw

theorem safe_commit (h : CreditLog customer held log db)
    (hno : ∀ w ∈ log, ¬w.Grants customer) (a : CreditResult) :
    (creditContract env customer).Safe (.commit a) held log db n := by
  intro db' n' _ hr hinv _
  have h' := h.mono rfl hr
  exact ⟨h', hinv.replay h'.fine, fun ⟨w, hw, hg⟩ ↦ absurd hg (hno w hw)⟩

private theorem safe_of_harmless {p : Txn env}
    (hp : Prog.Each (S := schema env) (Harmless customer) held p)
    (h : CreditLog customer held log db) (hno : ∀ w ∈ log, ¬w.Grants customer) :
    (creditContract env customer).Safe p held log db n := by
  induction p generalizing held log db n with
  | commit a => exact safe_commit h hno a
  | rollback e => trivial
  | lock k next ih =>
    intro db' n' _ hr _ _
    have h' := h.mono rfl hr
    exact ih hp ⟨h'.fine, fun w hw hg ↦ .inr (h'.granted w hw hg), fun m hm ↦
      ⟨.inr (h'.limits m hm).1, (h'.limits m hm).2⟩⟩ hno
  | query q next ih =>
    intro db' n' _ hr hinv hc
    have h' := h.mono rfl hr
    obtain ⟨hlog, hnone⟩ := harmless_exec hp.1 h' hinv hc.1 hc.2 rfl
    refine ih _ (hp.2 _) (h'.append hlog) fun w hw ↦ ?_
    exact (mem_append.mp hw).elim (hno w) (hnone w)

private theorem limitOf_of_present {c : Customer} (h : db.present customer = some c) :
    db.limitOf customer = c.creditLimit := by
  obtain ⟨hrow, -⟩ := Option.filter_eq_some_iff.mp h
  rw [CreditDb.limitOf, hrow, map_some, getD_some]

private theorem withinLimit_charge (hinv : CreditInv customer db) {b : Money} {e : AREntry}
    (hb : db.exposure customer (keyed fun _ _ ↦ true) ≤ b) (hc : e.customerId = customer)
    (he : b + e.amount ≤ db.limitOf customer) :
    WithinLimit env customer db [.insertEntry e] := by
  intro now _
  change (db.apply (.insertEntry e)).arBalance customer + db.held customer (live now)
    ≤ db.limitOf customer
  rw [arBalance_insertEntry, if_pos hc]
  calc db.arBalance customer + e.amount + db.held customer (live now)
      ≤ db.arBalance customer + e.amount + db.held customer (keyed fun _ _ ↦ true) :=
        add_le_add_right (hinv.held_mono fun _ _ ↦ rfl) _
    _ = db.exposure customer (keyed fun _ _ ↦ true) + e.amount := add_right_comm _ _ _
    _ ≤ b + e.amount := add_le_add_left hb _
    _ ≤ db.limitOf customer := he

private theorem safe_postCharge (amount : Numeric) :
    (creditContract env customer).Safe (postCharge env customer amount false) held [] db n := by
  -- the sums of the snapshot bound the exposure: first through the window, then under the lock
  intro db1 n1 _ _ _ _
  simp only [exec]
  split
  · trivial
  next bal heldSum hsnap =>
  obtain ⟨c1, -, hsums⟩ := map_eq_some_iff.mp hsnap
  have hb1 : db1.exposure customer (keyed fun _ _ ↦ true) = bal + heldSum := by
    rw [Prod.mk.injEq] at hsums
    rw [← hsums.1, ← hsums.2]
    rfl
  intro db2 n2 _ hr2 _ _
  have hb2 := (hr2.exposure_le (.inr rfl) fun _ _ ↦ true).trans hb1.le
  intro db3 n3 _ hr3 hinv3 _
  have hkey : LockKey.customer customer ∈ insert (LockKey.customer customer) held :=
    mem_insert _ _
  have hb3 := (hr3.exposure_le (.inl hkey) fun _ _ ↦ true).trans hb2
  simp only [exec]
  split
  · trivial
  next c hrow =>
  have hlim3 : db3.limitOf customer = c.creditLimit := limitOf_of_present hrow
  split
  · trivial
  intro db4 n4 _ hr4 _ _
  have hb4 := (hr4.exposure_le (.inl hkey) fun _ _ ↦ true).trans hb3
  change (creditContract env customer).Safe (answerCharge env (loggedRow Write.insertEntry _).2) _
    ([] ++ (loggedRow Write.insertEntry _).1) db4 (n4 + 1)
  rcases hins : insertCharge n4 ⟨customer, amount, false, bal, heldSum, c.creditLimit⟩
    with e | _ | e
  · trivial
  · trivial
  obtain ⟨hle, hcust, hty, hamt, -⟩ := insertCharge_eq_some hins
  -- the limit is finite, so the amount is
  obtain ⟨m, hm⟩ := WithTop.ne_top_iff_exists.mp (hlim3 ▸ hinv3.limit)
  have hsum : bal + heldSum + e.amount ≤ m := by
    refine Numeric.add_store_le ?_ hamt
    rw [← ofUnits_add, hm]
    exact hle.resolve_left (by simp)
  have hfin : e.amount ≠ ⊤ := fun htop ↦ by
    rw [htop, add_top] at hsum
    exact WithTop.coe_ne_top (top_le_iff.mp hsum)
  have hlog : ∀ db : CreditDb, CreditLog customer (insert (.customer customer) held)
      [.insertEntry e] db := fun db ↦
    ⟨by simpa [Write.Fine, hty] using fun _ ↦ hfin, fun _ _ _ ↦ hkey, by simp⟩
  intro db5 n5 _ hr5 hinv5 _
  refine ⟨hlog db5, hinv5.replay (hlog db5).fine, fun _ ↦ ?_⟩
  refine withinLimit_charge hinv5 ((hr5.exposure_le (.inl hkey) _).trans hb4) hcust ?_
  calc bal + heldSum + e.amount ≤ m := hsum
    _ = db3.limitOf customer := hm.trans hlim3.symm
    _ ≤ db4.limitOf customer := hr4.limit_le
    _ ≤ db5.limitOf customer := hr5.limit_le

/-! ## The authorization -/

/-- The log consists of settlements. -/
def Settles (log : List Write) : Prop :=
  ∀ w ∈ log, ∃ id st cb, w = .setStatus id st cb ∧ st ≠ .approved

theorem Settles.creditLog (h : Settles log) (held : Set LockKey) (db : CreditDb) :
    CreditLog customer held log db := by
  refine ⟨fun w hw ↦ ?_, fun w hw hg ↦ ?_, fun m hm ↦ ?_⟩
  · obtain ⟨id, st, cb, rfl, hst⟩ := h w hw
    exact hst
  · obtain ⟨id, st, cb, rfl, -⟩ := h w hw
    exact hg.elim
  · obtain ⟨id, st, cb, heq, -⟩ := h _ hm
    cases heq

theorem Expires.settles (h : Expires held log) : Settles log := fun w hw ↦ by
  obtain ⟨id, cb, rfl, -⟩ := h w hw
  exact ⟨id, .expired, cb, rfl, nofun⟩

theorem Settles.not_grants (h : Settles log) : ∀ w ∈ log, ¬w.Grants customer := by
  intro w hw hg
  obtain ⟨id, st, cb, rfl, -⟩ := h w hw
  exact hg

/-- Live at `now` and not settled by the log. -/
def stillOpen (now : ℤ) (log : List Write) (i : Uuid) (t : Option ℤ) : Bool :=
  t.all (now < ·) && decide (i ∉ settled log)

/-- The position as it was read still bounds the exposure that is left after the log. -/
structure Covers (customer : Uuid) (now : ℤ) (log : List Write) (pos : CreditPosition)
    (db : CreditDb) : Prop where
  exposure_le : db.exposure customer (keyed (stillOpen now log)) ≤ pos.exposure
  limit_le : pos.creditLimit ≤ db.limitOf customer
  available : ∀ v, v ≤ pos.available → pos.exposure + v ≤ pos.creditLimit
  finite : pos.creditLimit ≠ ⊤

theorem Covers.mono (h : Covers customer now log pos db) (hkey : .customer customer ∈ l.held)
    (hr : CreditRely env customer l db db') : Covers customer now log pos db' :=
  ⟨(hr.exposure_le (.inl hkey) _).trans h.exposure_le, h.limit_le.trans hr.limit_le,
    h.available, h.finite⟩

/-- The amounts of a customer are finite, and so are their sums. -/
theorem CreditInv.exposure_ne_top (h : CreditInv customer db) (p : Authorization → Bool) :
    db.arBalance customer ≠ ⊤ ∧ db.held customer p ≠ ⊤ := by
  have hsum : ∀ l : List Money, (∀ m ∈ l, m ≠ ⊤) → l.sum ≠ ⊤ := fun l hl ↦ by
    induction l with
    | nil => exact WithTop.coe_ne_top
    | cons m l ih =>
      rw [sum_cons, WithTop.add_ne_top]
      exact ⟨hl m mem_cons_self, ih fun m' hm' ↦ hl m' (mem_cons_of_mem m hm')⟩
  constructor
  · refine hsum _ fun m hm ↦ ?_
    obtain ⟨e, he, rfl⟩ := mem_map.mp hm
    obtain ⟨hmem, hc⟩ := mem_filter.mp he
    exact h.entries e hmem (of_decide_eq_true hc)
  · refine hsum _ fun m hm ↦ ?_
    obtain ⟨a, ha, rfl⟩ := mem_map.mp hm
    obtain ⟨hmem, hc⟩ := mem_filter.mp ha
    exact (h.holds a hmem (of_decide_eq_true hc).1).1

/-- What `CreditPosition` returns after the expired holds were settled. -/
theorem covers_creditPosition (hinv : CreditInv customer db) (hlog : Settles log)
    (hpos : creditPosition (replay (S := schema env) db log) customer now = some pos) :
    Covers customer now log pos db := by
  obtain ⟨c, hrow, rfl⟩ := map_eq_some_iff.mp hpos
  have hvw : CreditInv customer (replay (S := schema env) db log) :=
    hinv.replay (hlog.creditLog ∅ db).fine
  have hlim : (replay (S := schema env) db log).limitOf customer = c.creditLimit := by
    rw [CreditDb.limitOf, hrow, map_some, getD_some]
  have hsm : (replay (S := schema env) db log).limitOf customer = db.limitOf customer := by
    rcases limitOf_replay env hinv (hlog.creditLog ∅ db).fine with hsm | ⟨m, hm, -⟩
    · exact hsm
    · obtain ⟨id, st, cb, heq, -⟩ := hlog _ hm
      cases heq
  obtain ⟨hbal, hhd⟩ := hvw.exposure_ne_top (live now)
  refine ⟨(exposure_settled hlog fun _ t ↦ t.all (now < ·)).ge, ?_, fun v hv ↦ ?_, ?_⟩
  · exact (hlim.symm.trans hsm).le
  · -- all of it is finite, so what is available can be moved to the other side
    obtain ⟨m, hm⟩ := WithTop.ne_top_iff_exists.mp (hlim ▸ hvw.limit)
    obtain ⟨b, hb⟩ := WithTop.ne_top_iff_exists.mp hbal
    obtain ⟨h, hh⟩ := WithTop.ne_top_iff_exists.mp hhd
    dsimp only [CreditDb.exposure] at hv ⊢
    rw [← hm, ← hb, ← hh] at hv ⊢
    induction v using WithTop.recTopCoe with
    | top => exact absurd hv (by simp [← WithTop.LinearOrderedAddCommGroup.coe_sub])
    | coe v => norm_cast at hv ⊢; omega
  · exact hlim ▸ hvw.limit

private theorem withinLimit_approve {a : Authorization} (hinv : CreditInv customer db)
    (hlog : Settles log) (hcov : Covers customer now log pos db) (hnow : a.createdAt = now)
    (hc : a.customerId = customer) (hpos : 0 ≤ a.approvedAmount)
    (ha : pos.exposure + a.approvedAmount ≤ pos.creditLimit) :
    WithinLimit env customer db (log ++ [.insertAuthorization a]) := by
  intro now' hlat
  have hle : now ≤ now' := hnow ▸
    hlat _ (mem_append_right _ mem_cons_self) a rfl hc
  set view := replay (S := schema env) db log with hvw
  have hlast : replay (S := schema env) db (log ++ [.insertAuthorization a])
      = view.apply (.insertAuthorization a) := by rw [replay_append]; rfl
  rw [hlast]
  change view.arBalance customer + (view.apply (.insertAuthorization a)).held customer (live now')
    ≤ view.limitOf customer
  rw [held_eq_weight, weight_insertAuthorization, ← add_assoc]
  -- a later instant finds fewer live holds
  have hop : view.exposure customer (live now') ≤ pos.exposure := by
    refine (exposure_settled hlog fun _ t ↦ t.all (now' < ·)).le.trans ?_
    refine (add_le_add_right (hinv.held_mono fun x hx ↦ ?_) _).trans hcov.exposure_le
    simp only [keyed, stillOpen, Bool.and_eq_true] at hx ⊢
    refine ⟨?_, hx.2⟩
    cases ht : x.expiryAt with
    | none => rfl
    | some t =>
      rw [ht] at hx
      exact decide_eq_true (hle.trans_lt (of_decide_eq_true hx.1))
  calc view.arBalance customer + view.held customer (live now') + _
      ≤ pos.exposure + a.approvedAmount := by
        refine add_le_add hop ?_
        split
        · exact le_rfl
        · exact hpos
    _ ≤ pos.creditLimit := ha
    _ ≤ db.limitOf customer := hcov.limit_le
    _ ≤ view.limitOf customer := (hlog.creditLog ∅ db).limit_le_view hinv

theorem safe_approve (hcust : input.customerId = customer)
    (hpos : ¬input.requestedAmount ≤ .finite 0)
    (hava : input.requestedAmount ≤ .ofUnits 2 pos.available) (hkey : .customer customer ∈ held)
    (hlog : Settles log) (hcov : Covers customer now log pos db) :
    (creditContract env customer).Safe (approve env input now expiry) held log db n := by
  intro db1 n1 _ hr1 _ _
  have hcov1 := hcov.mono hkey hr1
  change (creditContract env customer).Safe
    (answerAuthorization env (logged Write.insertAuthorization _).2) held
    (log ++ (logged Write.insertAuthorization _).1) db1 (n1 + 1)
  cases hins : insertAuthorization (replay (S := schema env) db1 log) n1 input now expiry with
  | error e => trivial
  | ok a =>
    obtain ⟨hc, hnow, hamt, -⟩ := insertAuthorization_eq_ok hins
    have hle := hcov.available _ (Numeric.store_le hava hamt)
    have hfin : a.approvedAmount ≠ ⊤ := fun htop ↦ by
      rw [htop, add_top] at hle
      exact hcov.finite (top_le_iff.mp hle)
    have hnn : 0 ≤ a.approvedAmount := store_pos_nonneg hpos hamt
    have hgra : ∀ db : CreditDb, CreditLog customer held [.insertAuthorization a] db :=
      fun db ↦ ⟨by simpa [Write.Fine] using fun _ ↦ ⟨hfin, hnn⟩, fun _ _ _ ↦ hkey,
        by simp⟩
    intro db2 n2 _ hr2 hinv2 _
    have hlog2 := (hlog.creditLog held db2).append (hgra db2)
    refine ⟨hlog2, hinv2.replay hlog2.fine, fun _ ↦ ?_⟩
    exact withinLimit_approve hinv2 hlog (hcov1.mono hkey hr2) hnow (hc.trans hcust) hnn hle

/-- `RequestAuthorization` without override keeps the contract. -/
theorem safe_requestAuthorization {clock : ℤ} (hcust : input.customerId = customer)
    (hpos : ¬input.requestedAmount ≤ .finite 0) :
    (creditContract env customer).Safe (requestAuthorization env input now clock false)
      held [] db n := by
  refine safe_reply rfl fun db1 n1 _ hinv1 found hfd ↦ ?_
  obtain rfl : true = found := hinv1.exist.symm.trans (hcust ▸ hfd)
  rw [if_pos rfl]
  intro db2 n2 _ _ _ _
  have hkey : .customer customer ∈ insert (LockKey.customer input.customerId) held :=
    .inl (congrArg LockKey.customer hcust.symm)
  refine safe_authorize (fun _ hexp a ↦ ?_) fun hsub hexp hinv hrd ↦ ?_
  · exact safe_commit (hexp.settles.creditLog _ _) hexp.settles.not_grants a
  · have hlog := hexp.settles
    rw [hcust] at hrd
    refine safe_decideAuthorization (fun hcov hr _ ↦ hcov.mono (hsub hkey) hr)
      (fun _ ↦ safe_commit (hlog.creditLog _ _) hlog.not_grants) (fun hcov hche ↦ ?_)
      (covers_creditPosition hinv hlog hrd)
    exact safe_approve hcust hpos (hche rfl).1 (hsub hkey) hlog hcov

section Harmless

private theorem each_postCharge {c : Uuid} (hc : c ≠ customer) (amount : Numeric)
    (override : Bool) :
    Prog.Each (S := schema env) (Harmless customer) held (postCharge env c amount override) := by
  refine ⟨trivial, fun sums ↦ ?_⟩
  rcases sums with _ | ⟨bal, heldSum⟩
  · trivial
  refine ⟨trivial, fun row ↦ ?_⟩
  rcases row with _ | row
  · trivial
  dsimp only
  split
  · trivial
  · refine ⟨hc, fun r ↦ ?_⟩
    rcases r with e | _ | e <;> trivial

private theorem safe_requestAuthorization_of_ne (hc : input.customerId ≠ customer) (now clock : ℤ)
    (override : Bool) : (creditContract env customer).Safe
      (requestAuthorization env input now clock override) held [] db n := by
  have hauth : ∀ held db n expiry, (creditContract env customer).Safe
      (authorize env input now expiry override) held [] db n := fun held db n expiry ↦ by
    refine safe_authorize (fun _ hexp ↦ ?_) fun _ hexp _ _ ↦ ?_
    · exact safe_commit (hexp.settles.creditLog _ _) hexp.settles.not_grants
    · have hlog := hexp.settles
      refine safe_decideAuthorization (A := fun _ ↦ True) (fun _ _ _ ↦ trivial)
        (fun _ ↦ safe_commit (hlog.creditLog _ _) hlog.not_grants) (fun _ _ ↦ ?_) trivial
      exact safe_of_harmless ⟨hc, fun r ↦ by cases r <;> trivial⟩
        (hlog.creditLog _ _) hlog.not_grants
  refine safe_reply rfl fun db1 n1 _ _ found _ ↦ ?_
  cases found with
  | true => exact fun db2 n2 _ _ _ _ ↦ hauth _ _ _ _
  | false => exact hauth _ _ _ _

private theorem each_fulfillAuthorization (id sale : Uuid) :
    Prog.Each (S := schema env) (Harmless customer) held (fulfillAuthorization env id sale) := by
  refine ⟨trivial, fun exists_ ↦ ?_⟩
  cases exists_ with
  | false => trivial
  | true =>
    refine ⟨trivial, fun found ↦ ?_⟩
    cases found with
    | false => trivial
    | true =>
      refine ⟨trivial, fun r ↦ ?_⟩
      rcases r with e | _ | a
      · cases e <;> trivial
      · trivial
      · trivial

private theorem each_setAuthorizationStatus (id : Uuid) (closing : Closing) :
    Prog.Each (S := schema env) (Harmless customer) held
      (setAuthorizationStatus env id closing) := by
  refine ⟨trivial, fun found ↦ ?_⟩
  cases found with
  | false => trivial
  | true =>
    refine ⟨trivial, fun r ↦ ?_⟩
    cases r <;> trivial

private theorem each_updateCreditLimit (c : Uuid) (limit : Numeric) :
    Prog.Each (S := schema env) (Harmless customer) held (updateCreditLimit env c limit) := by
  refine ⟨trivial, fun found ↦ ?_⟩
  cases found with
  | false => trivial
  | true =>
    refine ⟨fun hc ↦ .inl (congrArg LockKey.customer hc.symm), fun r ↦ ?_⟩
    rcases r with e | _ | c <;> trivial

end Harmless

/-! ## Interleavings -/

/-- A transaction of the credit system, without overrides. -/
inductive CreditTxn where
  | postCharge (customer : Uuid) (amount : Numeric)
  | postPayment (customer : Uuid) (amount : PositiveAmount)
  | requestAuthorization (input : AuthRequest) (now clock : ℤ)
      (h : ¬input.requestedAmount ≤ .finite 0)
  | fulfillAuthorization (id sale : Uuid)
  | setAuthorizationStatus (id : Uuid) (closing : Closing)
  | updateCreditLimit (customer : Uuid) (limit : Numeric)

def CreditTxn.prog (env : Env) : CreditTxn → Txn env
  | .postCharge customer amount => Credit.postCharge env customer amount false
  | .postPayment customer amount => Credit.postPayment env customer amount
  | .requestAuthorization input now clock _ =>
    Credit.requestAuthorization env input now clock false
  | .fulfillAuthorization id sale => Credit.fulfillAuthorization env id sale
  | .setAuthorizationStatus id closing => Credit.setAuthorizationStatus env id closing
  | .updateCreditLimit customer limit => Credit.updateCreditLimit env customer limit

theorem safe_creditTxn (t : CreditTxn) :
    (creditContract env customer).Safe (t.prog env) ∅ [] db n := by
  have hno : ∀ w ∈ ([] : List Write), ¬w.Grants customer := by simp
  cases t with
  | postCharge c amount =>
    by_cases hc : c = customer
    · subst hc
      exact safe_postCharge amount
    · exact safe_of_harmless (each_postCharge hc amount false) .nil hno
  | postPayment c amount =>
    exact safe_of_harmless ⟨amount.not_le_zero, fun r ↦ by cases r <;> trivial⟩ .nil hno
  | requestAuthorization input now clock hpos =>
    by_cases hc : input.customerId = customer
    · exact safe_requestAuthorization hc hpos
    · exact safe_requestAuthorization_of_ne hc now clock false
  | fulfillAuthorization id sale =>
    exact safe_of_harmless (each_fulfillAuthorization id sale) .nil hno
  | setAuthorizationStatus id closing =>
    exact safe_of_harmless (each_setAuthorizationStatus id closing) .nil hno
  | updateCreditLimit c limit =>
    exact safe_of_harmless (each_updateCreditLimit c limit) .nil hno

instance (w : Write) : Decidable (w.Grants customer) :=
  match w with
  | .insertEntry _ => inferInstanceAs (Decidable (_ ∧ _))
  | .insertAuthorization _ => inferInstanceAs (Decidable (_ = _))
  | .setStatus _ _ _ | .setCreditLimit _ _ => .isFalse id

/-- The first transaction has granted something to the customer, and the second is a charge between
its snapshot and its lock. -/
def GrantsIntoWindow (env : Env) (customer : Uuid) (l l' : Local (schema env)) : Prop :=
  (∃ w ∈ l.log, w.Grants customer) ∧ InChargeWindow env customer l'.prog
  deriving Decidable

/-- The statement executed next pays a number and does not lower the limit. -/
def Admissible (env : Env) (customer : Uuid) (l : Local (schema env)) (db : CreditDb) : Prop :=
  PaysNumber env customer l ∧ KeepsLimit env customer l db
  deriving Decidable

/-- Nothing is granted to the customer inside the window of a charge, nobody pays `NaN` and nobody
lowers the limit. -/
def ChargesIsolated {T : Type} (env : Env) (customer : Uuid) (s : State (schema env) T)
    (a : Act T) : Prop :=
  s.Apart (GrantsIntoWindow env customer) a ∧ s.Acting (Admissible env customer) a

instance {T : Type} [DecidableEq T] [Fintype T] (s : State (schema env) T) (a : Act T) :
    Decidable (ChargesIsolated env customer s a) :=
  inferInstanceAs (Decidable (_ ∧ _))

theorem creditContract_suits {T : Type} :
    Contract.Suits (T := T) (creditContract env customer) (ChargesIsolated env customer) where
  cond hC hp := hC.2.of_prog hp
  compat {s t a u p} hC hp hinv hguar hne hu := by
    have hlog : CreditLog customer _ (s.log t) s.db := hguar
    -- the lock of the customer has one holder
    have hhd : .customer customer ∈ (s.txn u p).held →
        ¬(LockKey.customer customer ∈ (s.txn t (.commit a)).held) := fun hk hk' ↦
      hne (eq_of_held rfl hk hk')
    refine ⟨hlog.limit_le_view hinv, fun hk ↦ ?_, fun hk q ↦ ?_⟩
    · rcases limitOf_replay env hinv hlog.fine with hsm | ⟨m, hm, -⟩
      · exact hsm
      · exact absurd (hlog.limits m hm).1 (hhd hk)
    · refine hinv.exposure_replay_le hlog.fine (fun w hw hg ↦ ?_) q
      rcases hk with hk | hwin
      · exact hhd hk (hlog.granted w hw hg)
      · exact hC.1.not_clash hp hne hu ⟨⟨w, hw, hg⟩, hwin⟩

/-- In every interleaving that keeps grants out of the window of the charges, every commit of a
charge or an approval leaves the customer within the limit. -/
theorem withinLimit_of_chargesIsolated {T : Type} [DecidableEq T] (txns : T → CreditTxn)
    {db₀ : CreditDb} (h₀ : CreditInv customer db₀) {s : State (schema env) T}
    (h : Reach (ChargesIsolated env customer) (State.init db₀ 1 fun t ↦ (txns t).prog env) s) :
    ∀ c ∈ s.commits, (∃ w ∈ c.writes, w.Grants customer) →
      WithinLimit env customer c.before c.writes :=
  (Contract.sound creditContract_suits h₀ (fun t ↦ safe_creditTxn (txns t)) h).2

def creditDb : CreditDb where
  customer id := if id = 1 then some ⟨(10000 : ℤ), .active, false⟩ else none
  entries := []
  authorizations := []
  limits := []
  credential _ := none
  sales := []

def twoCharges (amount : ℚ) : Bool → CreditTxn := fun _ ↦ .postCharge 1 (.finite amount)

/-- `date_trunc` plays no part without fuel limits. -/
def Env.plain : Env := ⟨fun _ now ↦ now⟩

/-- Both charges of 60 sum on the empty ledger; the second waits for the lock of the first and
inserts without summing again. -/
theorem not_withinLimit_of_stale_charge :
    ∃ s : State (schema .plain) Bool,
      Reach (fun _ _ ↦ True)
        (State.init creditDb 1 fun t ↦ (twoCharges 60 t).prog .plain) s ∧
      ∃ c ∈ s.commits, (∃ w ∈ c.writes, w.Grants 1) ∧ ¬WithinLimit .plain 1 c.before c.writes := by
  have hrun : ((State.init creditDb 1 fun t ↦ (twoCharges 60 t).prog .plain).runs
      (fun _ _ ↦ True) (turns [(false, 1), (true, 1), (false, 4), (true, 4)])).map
      (fun s ↦ decide (∃ c ∈ s.commits, (∃ w ∈ c.writes, w.Grants 1) ∧
        ¬WithinLimitAt .plain 1 c.before c.writes 0)) = some true := by
    decide +kernel
  obtain ⟨s, hs, hbad⟩ := map_eq_some_iff.mp hrun
  obtain ⟨c, hc, hgra, hover⟩ := of_decide_eq_true hbad
  exact ⟨s, .of_runs hs, c, hc, hgra, fun h ↦ hover (h 0)⟩

/-- Two charges of 40, one after the other, are both accepted. -/
theorem withinLimit_of_chargesIsolated_twice :
    ∃ s : State (schema .plain) Bool,
      Reach (ChargesIsolated .plain 1)
        (State.init creditDb 1 fun t ↦ (twoCharges 40 t).prog .plain) s ∧
      s.commits.length = 2 ∧ ∀ c ∈ s.commits, (∃ w ∈ c.writes, w.Grants 1) →
        WithinLimit .plain 1 c.before c.writes := by
  have hinv : CreditInv 1 creditDb := ⟨rfl, WithTop.coe_ne_top, by simp [creditDb],
    by simp [creditDb]⟩
  have hrun : ((State.init creditDb 1 fun t ↦ (twoCharges 40 t).prog .plain).runs
      (ChargesIsolated .plain 1) (turns [(false, 5), (true, 5)])).map (fun s ↦ s.commits.length)
        = some 2 := by
    decide +kernel
  obtain ⟨s, hs, hlen⟩ := map_eq_some_iff.mp hrun
  exact ⟨s, .of_runs hs, hlen, withinLimit_of_chargesIsolated _ hinv (.of_runs hs)⟩

end FuelGrid.Credit
