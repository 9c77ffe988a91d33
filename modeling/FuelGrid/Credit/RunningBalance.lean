import FuelGrid.Credit.LimitSafety

/-!
# The running balance of a customer

Each entry of `ar_entries` stores the customer's balance after it. `PostCharge` and `PostPayment`
compute it from a sum over the committed entries, so an entry that is committed between the sum and
the commit is missing from it. `PostCharge` locks the customer, but in the statement that takes the
sum, and the sum is that of the statement's start; `PostPayment` takes no lock at all. Two payments
that overlap store the same balance, and then no order of the entries is a running balance.
-/

namespace FuelGrid.Credit

open Sql

def CreditDb.entriesOf (db : CreditDb) (customer : Uuid) : List AREntry :=
  db.entries.filter (·.customerId = customer)

/-- Each row's `balance_after` is the sum of the amounts up to and including the row. -/
def Running (order : List AREntry) : Prop :=
  ∀ before e after, order = before ++ e :: after →
    e.balanceAfter = (before.map (·.amount)).sum + e.amount

/-- The entries of the customer can be put in an order that is a running balance and ends with what
the customer owes. -/
def CreditDb.RunningBalance (db : CreditDb) (customer : Uuid) : Prop :=
  ∃ order : List AREntry, order.Perm (db.entriesOf customer) ∧ Running order ∧
    ∀ e ∈ order.getLast?, e.balanceAfter = db.arBalance customer

variable {e : AREntry} {c : Uuid}

theorem Running.append {order : List AREntry} (h : Running order)
    (he : e.balanceAfter = (order.map (·.amount)).sum + e.amount) : Running (order ++ [e]) := by
  intro before x after heq
  rcases List.eq_nil_or_concat after with rfl | ⟨after, y, rfl⟩
  · obtain ⟨rfl, hx⟩ := List.append_inj' heq rfl
    obtain rfl := List.singleton_inj.mp hx
    exact he
  · rw [List.concat_eq_append, ← List.cons_append, ← append_assoc] at heq
    exact h before x after (List.append_inj' heq rfl).1

/-- A new entry comes last. If it is one of the customer, its balance has to be right. -/
theorem CreditDb.RunningBalance.insertEntry {db : CreditDb} {customer : Uuid}
    (h : db.RunningBalance customer)
    (hbal : e.customerId = customer → e.balanceAfter = db.arBalance customer + e.amount) :
    (db.apply (.insertEntry e)).RunningBalance customer := by
  obtain ⟨order, hperm, hrun, hlast⟩ := h
  have hents : (db.apply (.insertEntry e)).entriesOf customer
      = db.entriesOf customer ++ if e.customerId = customer then [e] else [] := by
    change (db.entries ++ [e]).filter _ = _
    rw [filter_append, List.filter_singleton, Bool.cond_decide]
    rfl
  rw [CreditDb.RunningBalance, hents, arBalance_insertEntry]
  split
  next he =>
    have hbal := hbal he
    have hsum : (order.map (·.amount)).sum = db.arBalance customer := (hperm.map _).sum_eq
    refine ⟨order ++ [e], hperm.append_right [e], hrun.append (hsum ▸ hbal), fun x hx ↦ ?_⟩
    rw [List.getLast?_concat] at hx
    rw [← some.inj hx]
    exact hbal
  · rw [append_nil, add_zero]
    exact ⟨order, hperm, hrun, hlast⟩

/-! ## Interleavings

When no entry of the customer is committed while another transaction is between its sum and its
commit, and amounts are whole cents, the order of the commits is one
(`runningBalance_of_sumsIsolated`). -/

/-- A transaction that writes receivables. -/
inductive ArTxn where
  | postCharge (customer : Uuid) (amount : Numeric) (allowOverLimit : Bool)
  | postPayment (customer : Uuid) (amount : PositiveAmount)

def ArTxn.prog (env : Env) : ArTxn → Txn env
  | .postCharge customer amount allowOverLimit =>
    Credit.postCharge env customer amount allowOverLimit
  | .postPayment customer amount => Credit.postPayment env customer amount

def ArTxn.WholeCents : ArTxn → Prop
  | .postCharge _ amount _ => amount.Whole 2
  | .postPayment _ amount => amount.val.Whole 2

def Write.entry? : Write → Option AREntry
  | .insertEntry e => some e
  | _ => none

variable (env : Env) (customer : Uuid)

/-- The transaction has an entry of the customer to commit. -/
def WritesEntry (l : Local (schema env)) : Prop :=
  ∃ e ∈ l.log.filterMap Write.entry?, e.customerId = customer

instance (l : Local (schema env)) : Decidable (WritesEntry env customer l) :=
  inferInstanceAs (Decidable (∃ e ∈ l.log.filterMap Write.entry?, _))

/-- A charge that has its sum and has not inserted its entry. -/
def InCharge : Txn env → Prop
  | .lock (.customer c) _ => c = customer
  | .query (.lockedCustomer c) _ => c = customer
  | .query (.insertCharge input) _ => input.customerId = customer
  | _ => False

def inCharge? : Txn env → Option Uuid
  | .lock (.customer c) _ => some c
  | .query (.lockedCustomer c) _ => some c
  | .query (.insertCharge input) _ => some input.customerId
  | _ => none

private theorem inCharge?_eq_some {p : Txn env} :
    inCharge? env p = some customer ↔ InCharge env customer p := by
  unfold inCharge? InCharge
  split <;> simp

instance (p : Txn env) : Decidable (InCharge env customer p) :=
  decidable_of_iff _ (inCharge?_eq_some env customer)

/-- The transaction has summed the entries of the customer and not committed yet. -/
def SumTaken (l : Local (schema env)) : Prop :=
  InCharge env customer l.prog ∨ WritesEntry env customer l
  deriving Decidable

/-- The first transaction has an entry to commit, and the second has a sum without it. -/
def EntryIntoSum (l l' : Local (schema env)) : Prop :=
  WritesEntry env customer l ∧ SumTaken env customer l'
  deriving Decidable

/-- Whoever has a sum can rely on it; the entries of others are out. -/
def runningContract : Contract (schema env) where
  inv db _ := db.RunningBalance customer
  rely l db db' := SumTaken env customer l → db'.arBalance customer = db.arBalance customer
  cond _ _ _ := True
  guar _ _ _ := True
  post _ _ _ := True
  inv_tick h := h
  rely_refl _ _ _ := rfl
  rely_trans h h' hsum := (h' hsum).trans (h hsum)

section Rules

variable {env customer} {held : Set LockKey} {db : CreditDb} {n : ℕ}

private theorem arBalance_replay {log : List Write}
    (hlog : ¬∃ e ∈ log.filterMap Write.entry?, e.customerId = customer) :
    (replay (S := schema env) db log).arBalance customer = db.arBalance customer := by
  induction log generalizing db with
  | nil => rfl
  | cons w ws ih =>
    rw [replay_cons]
    rcases w with e | a | ⟨id, status, consumedBy⟩ | ⟨c, limit⟩
    · have hne : e.customerId ≠ customer := fun he ↦ hlog ⟨e, mem_cons_self, he⟩
      refine (ih fun h ↦ ?_).trans ?_
      · obtain ⟨x, hx, hxc⟩ := h
        exact hlog ⟨x, mem_cons_of_mem _ hx, hxc⟩
      · change (db.apply (.insertEntry e)).arBalance customer = _
        rw [arBalance_insertEntry, if_neg hne, add_zero]
    all_goals exact ih hlog

private theorem safe_commitEntry {a : CreditResult}
    (he : e.customerId = customer → e.balanceAfter = db.arBalance customer + e.amount) :
    (runningContract env customer).Safe (.commit a) held [.insertEntry e] db n := by
  intro db' n' _ hr hinv _
  refine ⟨trivial, hinv.insertEntry fun hcus ↦ ?_, trivial⟩
  have hsum : SumTaken env customer ⟨held, [.insertEntry e], .commit a⟩ :=
    .inr ⟨e, mem_singleton_self e, hcus⟩
  rw [hr hsum]
  exact he hcus

private theorem safe_running_postPayment {amount : PositiveAmount} (hwh : amount.val.Whole 2) :
    (runningContract env customer).Safe (postPayment env c amount) held [] db n := by
  refine safe_query fun db' n' _ _ _ _ ws r hout ↦ ?_
  obtain ⟨err, -, rfl, rfl⟩ | ⟨e, hins, rfl, rfl⟩ := logged_eq hout
  · trivial
  · obtain ⟨rfl, -, hamt, hbal⟩ := insertPayment_eq_ok hins
    exact safe_commitEntry fun he ↦ he ▸ hwh.neg.store_add hamt hbal

private theorem safe_running_postCharge {amount : Numeric} {allowOverLimit : Bool}
    (hwh : amount.Whole 2) :
    (runningContract env customer).Safe (postCharge env c amount allowOverLimit) held [] db n := by
  refine safe_reply rfl fun db1 n1 _ _ snapshot hsna ↦ ?_
  have hsna : (db1.present c).map (fun _ ↦ (db1.arBalance c, db1.held c fun _ ↦ true))
    = snapshot := hsna
  rcases snapshot with _ | ⟨arBalance, authHeld⟩
  · trivial
  obtain ⟨-, -, hpair⟩ := map_eq_some_iff.mp hsna
  obtain ⟨rfl, rfl⟩ := Prod.mk.inj hpair
  -- from here on the sum is that of the committed entries, if the customer is ours
  intro db2 n2 _ hr2 _ _
  refine safe_reply rfl ?_
  rintro db3 n3 hr3 _ (_ | row) _
  · trivial
  dsimp only
  split
  · trivial
  refine safe_query fun db4 n4 _ hr4 _ _ ws r hout ↦ ?_
  obtain ⟨err, -, rfl, rfl⟩ | ⟨-, rfl, rfl⟩ | ⟨e, hins, rfl, rfl⟩ := loggedRow_eq hout
  · trivial
  · trivial
  · obtain ⟨-, hcus, -, hamt, hbal⟩ := insertCharge_eq_some hins
    refine safe_commitEntry fun he ↦ ?_
    obtain rfl : c = customer := hcus.symm.trans he
    have hsum : db4.arBalance c = db1.arBalance c := by
      rw [hr4 (.inl rfl), hr3 (.inl rfl), hr2 (.inl rfl)]
    rw [hsum]
    exact hwh.store_add hamt hbal

end Rules

/-- Nobody commits an entry of the customer while another transaction has a sum without it. -/
def SumsIsolated {T : Type} (s : State (schema env) T) (a : Act T) : Prop :=
  s.Apart (EntryIntoSum env customer) a

instance {T : Type} [DecidableEq T] [Fintype T] (s : State (schema env) T) (a : Act T) :
    Decidable (SumsIsolated env customer s a) :=
  inferInstanceAs (Decidable (s.Apart _ a))

theorem runningContract_suits {T : Type} :
    Contract.Suits (T := T) (runningContract env customer) (SumsIsolated env customer) where
  cond _ _ := trivial
  compat {s t a u p} hC hp _ _ hne hu hsum := by
    refine arBalance_replay fun hwri ↦ ?_
    exact hC.not_clash hp hne hu ⟨hwri, hsum⟩

variable {env customer}

/-- In every interleaving of charges and payments of whole cents that keeps entries out of the sums
of others, the customer's entries are a running balance. -/
theorem runningBalance_of_sumsIsolated {T : Type} [DecidableEq T] (txns : T → ArTxn)
    (hwhole : ∀ t, (txns t).WholeCents) {db₀ : CreditDb} {n₀ : ℕ} (h₀ : db₀.RunningBalance customer)
    {s : State (schema env) T}
    (h : Reach (SumsIsolated env customer) (State.init db₀ n₀ fun t ↦ (txns t).prog env) s) :
    s.db.RunningBalance customer := by
  refine (Contract.sound (runningContract_suits env customer) h₀ (fun t ↦ ?_) h).1
  have hwhole := hwhole t
  rcases htxn : txns t with ⟨c, amount, allowOverLimit⟩ | ⟨c, amount⟩ <;> rw [htxn] at hwhole
  · exact safe_running_postCharge hwhole
  · exact safe_running_postPayment hwhole

private theorem runningBalance_of_empty {db : CreditDb} (h : db.entriesOf customer = []) :
    db.RunningBalance customer := by
  refine ⟨[], by rw [h], fun before e after heq ↦ ?_, nofun⟩
  exact absurd heq (by simp)

def twoPayments : Bool → ArTxn := fun _ ↦ .postPayment 1 ⟨.finite 10, by decide⟩

/-- Both payments sum the empty ledger, and both store a balance of -10.00. -/
theorem not_runningBalance_of_overlap :
    ∃ s : State (schema .plain) Bool,
      Reach (fun _ _ ↦ True) (State.init creditDb 1 fun t ↦ (twoPayments t).prog .plain) s ∧
        ¬s.db.RunningBalance 1 := by
  refine exists_and_imp (fun s ↦ s.db.entriesOf 1 ≠ [] ∧
      ∀ e ∈ s.db.entriesOf 1, e.balanceAfter ≠ s.db.arBalance 1)
    (exists_of_runs (turns [(false, 1), (true, 1), (false, 1), (true, 1)]) (by decide +kernel)) ?_
  rintro _ _ ⟨hne, hno⟩
  intro h
  obtain ⟨order, hperm, -, hlast⟩ := h
  have hne : order ≠ [] := fun h ↦ hne (List.nil_perm.mp (h ▸ hperm))
  exact hno (order.getLast hne) (hperm.mem_iff.mp (List.getLast_mem hne))
    (hlast _ (List.getLast?_eq_some_getLast hne))

/-- The two payments one after the other. -/
theorem runningBalance_of_sumsIsolated_twice :
    ∃ s : State (schema .plain) Bool,
      Reach (SumsIsolated .plain 1) (State.init creditDb 1 fun t ↦ (twoPayments t).prog .plain) s ∧
        (s.db.entriesOf 1).length = 2 ∧ s.db.RunningBalance 1 := by
  refine exists_and_imp (fun s ↦ (s.db.entriesOf 1).length = 2)
    (exists_of_runs (turns [(false, 2), (true, 2)]) (by decide +kernel)) ?_
  rintro _ hs hlen
  have hwh : ∀ t, (twoPayments t).WholeCents := fun _ ↦ by
    change Numeric.Whole 2 (.finite 10)
    decide +kernel
  exact ⟨hlen, runningBalance_of_sumsIsolated twoPayments hwh
    (runningBalance_of_empty rfl) hs⟩

end FuelGrid.Credit
