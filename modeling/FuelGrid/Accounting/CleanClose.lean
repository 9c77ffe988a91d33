import FuelGrid.Banking.Schema
import FuelGrid.Expenses.Schema
import FuelGrid.Payables.Schema
import FuelGrid.Receivables.Schema

/-!
# Closing a period over a clean checklist

A period may be closed or locked only when the blocking counts of the close checklist are all zero.
The handler takes the counts inside the transaction of the transition, but one after the other and
without a lock. Under READ COMMITTED each sees the rows of its own moment, so what is committed to a
table that was already counted is missed, and the transition commits over it
(`not_cleanLaw_of_late_draft`).
-/

namespace FuelGrid.Close

open Sql Accounting

/-! ## The checklist

A check counts the unsettled rows of one table; five of the seven block the transition. -/

/-- `bank_statement_lines.status` -/
inductive LineStatus where
  | unmatched | matched | bankFee | unknown
  deriving DecidableEq

/-- The status of a row, with the table it is in. -/
inductive Item where
  | cashReconciliation (status : Banking.ReconStatus)
  | bankDeposit (status : Banking.DepositStatus)
  | bankStatementLine (status : LineStatus)
  | payable (status : Payables.PayableStatus)
  | expense (status : Expenses.ExpenseStatus)
  | customerInvoice (status : Receivables.InvoiceStatus)

inductive Check where
  | unpostedCashReconciliations | openDeposits | unmatchedBankLines | openPayables
  | expensesAwaitingPosting | unissuedCustomerInvoices | openCustomerInvoices
  deriving DecidableEq

def periodCloseChecks : List Check :=
  [.unpostedCashReconciliations, .openDeposits, .unmatchedBankLines, .openPayables,
    .expensesAwaitingPosting, .unissuedCustomerInvoices, .openCustomerInvoices]

def Check.blocker : Check → Bool
  | .openPayables | .openCustomerInvoices => false
  | _ => true

/-- The condition of the check's `SELECT count(*)`. -/
def Check.counts : Check → Item → Bool
  | .unpostedCashReconciliations, .cashReconciliation status => status ≠ .posted
  | .openDeposits, .bankDeposit status => status ∉ [.posted, .voided]
  | .unmatchedBankLines, .bankStatementLine status => status = .unmatched
  | .openPayables, .payable status => status ∈ [.opened, .partiallyPaid]
  | .expensesAwaitingPosting, .expense status => status ∈ [.draft, .submitted, .approved]
  | .unissuedCustomerInvoices, .customerInvoice status => status = .draft
  | .openCustomerInvoices, .customerInvoice status => status ∈ [.issued, .partiallyPaid]
  | _, _ => false

/-! ## The database -/

/-- The general ledger, and the rows of the counted tables by id. -/
structure CloseDb where
  ledger : AccountingDb
  items : List (Uuid × Item)

inductive Query where
  | ledger (q : Accounting.Query)
  | count (c : Check)
  /-- A statement of another request: it writes the rows that `put` computes from those it sees. -/
  | statement (put : List (Uuid × Item) → List (Uuid × Item))

abbrev Reply : Query → Type
  | .ledger q => Accounting.Reply q
  | .count _ => ℕ
  | .statement _ => List (Uuid × Item)

inductive Write where
  | ledger (w : Accounting.Write)
  | put (id : Uuid) (item : Item)

def CloseDb.apply (db : CloseDb) : Write → CloseDb
  | .ledger w => { db with ledger := db.ledger.apply w }
  | .put id item => { db with items := (id, item) :: db.items.filter (·.1 ≠ id) }

inductive LockKey where
  | ledger (k : Accounting.LockKey)
  | item (id : Uuid)
  deriving DecidableEq

inductive CloseResult where
  | ledger (r : AccountingResult)
  | done

inductive CloseError where
  | http (code : ℕ) (message : String)

variable (chart : Chart)

def exec : (q : Query) → (committed view : CloseDb) → ℕ → List Write × Reply q
  | .ledger q, committed, db, n =>
    let out := Accounting.exec chart q committed.ledger db.ledger n
    (out.1.map .ledger, out.2)
  | .count c, _, db, _ => ([], db.items.countP fun x ↦ c.counts x.2)
  | .statement put, _, db, _ => ((put db.items).map fun x ↦ .put x.1 x.2, db.items)

@[reducible] def schema : Schema where
  Db := CloseDb
  Write := Write
  Query := Query
  Reply := Reply
  Key := LockKey
  Result := CloseResult
  Error := CloseError
  apply := CloseDb.apply
  exec := exec chart

abbrev Txn := Prog (schema chart)

def transitionError : AccountingError → CloseError
  | .errPeriodNotFound => .http 404 "period not found"
  | .errPeriodTransition => .http 409 "invalid period transition"
  | _ => .http 500 "internal error"

def ledgerPart : Part (Accounting.schema chart) (schema chart) where
  part db := db.ledger
  put db ledger := { db with ledger }
  write := .ledger
  query := .ledger
  reply _ r := r
  key := .ledger
  result := .ledger
  error := transitionError
  put_part _ := rfl
  part_put _ _ := rfl
  put_put _ _ _ := rfl
  key_inj _ _ h := LockKey.ledger.inj h
  apply_write _ _ := rfl
  exec_writes _ _ _ _ := rfl
  exec_reply _ _ _ _ := rfl

/-! ## The handler -/

/-- `periodCloseChecklist`: `next` gets the number of blockers. -/
def periodCloseChecklist (next : ℕ → Txn chart) : List Check → ℕ → Txn chart
  | [], blockers => next blockers
  | c :: checks, blockers => .query (.count c) fun n ↦
    periodCloseChecklist next checks (if c.blocker then blockers + n else blockers)

/-- The transaction of `handlePeriodTransition`. -/
def handlePeriodTransition (edge : PeriodEdge) (id actorId : Uuid) (now : ℤ) : Txn chart :=
  let transition := (Op.prog chart (.transition edge id actorId now)).lift (ledgerPart chart)
  match edge with
  | .closePeriod | .lockPeriod =>
    periodCloseChecklist chart (fun blockers ↦
      if 0 < blockers then .rollback (.http 422
        "period has unresolved close-checklist blockers; clear them before closing or locking")
      else transition) periodCloseChecks 0
  | .startClose | .reopenPeriod => transition

/-- A request: a transition of a period, or any other transaction. -/
inductive Request where
  | transition (edge : PeriodEdge) (id actorId : Uuid) (now : ℤ)
  | other (p : Txn chart)

variable {chart}

def Request.prog : Request chart → Txn chart
  | .transition edge id actorId now => handlePeriodTransition chart edge id actorId now
  | .other p => p

def Request.closes : Request chart → Bool
  | .transition .closePeriod _ _ _ | .transition .lockPeriod _ _ _ => true
  | _ => false

/-! ## Clean transitions

The other requests of the tenant are any transactions at all: a statement of theirs sees every
counted row and may write any. If none of them commits a row that a blocking check counts after a
closing transition has found none, every transition to closed or locked commits over a clean
checklist (`cleanLaw_of_undisturbed`). -/

def Clear (db : CloseDb) (c : Check) : Prop := ∀ x ∈ db.items, c.counts x.2 = false
  deriving Decidable

/-- No row is counted by a blocking check. -/
def Clean (db : CloseDb) : Prop := ∀ c ∈ periodCloseChecks, c.blocker → Clear db c
  deriving Decidable

variable {T : Type} (requests : T → Request chart) {held : Set LockKey} {log : List Write}
  {db : CloseDb} {n : ℕ} {next : ℕ → Txn chart}

/-- Every transition to closed or locked has committed over a clean checklist. -/
def CleanLaw (s : State (schema chart) T) : Prop :=
  ∀ c ∈ s.commits, (requests c.txn).closes → Clean c.before
  deriving Decidable

/-- The checks that a closing transition has behind it, by what is left of it. -/
def passed : Txn chart → List Check
  | .query (.count c) _ => periodCloseChecks.takeWhile (· ≠ c)
  | _ => periodCloseChecks

/-- The commit of `t` brings up a row for a check that the closing transition `u` has passed. -/
def Disturbs (s : State (schema chart) T) (t u : T) (l : Local (schema chart)) : Prop :=
  (requests u).closes ∧
    ∃ c ∈ passed l.prog, c.blocker ∧ Clear s.db c ∧ ¬Clear (s.view t) c
  deriving Decidable

/-- No commit disturbs a closing transition in progress. -/
def Undisturbed (s : State (schema chart) T) (a : Act T) : Prop := s.ApartBy (Disturbs requests s) a

instance [DecidableEq T] [Fintype T] (s : State (schema chart) T) (a : Act T) :
    Decidable (Undisturbed requests s a) :=
  inferInstanceAs (Decidable (s.ApartBy _ a))

/-! ## The contract

A closing transition relies on the tables it has counted: they stay clear until it commits. -/

/-- A closing transition relies on the counts that it has taken. -/
def cleanContract (closes : Bool) : Contract (schema chart) where
  inv _ _ := True
  rely l db db' := closes → ∀ c ∈ passed l.prog, c.blocker → Clear db c → Clear db' c
  cond _ _ _ := True
  guar _ _ _ := True
  post _ db _ := closes → Clean db
  inv_tick h := h
  rely_refl _ _ _ _ _ _ h := h
  rely_trans h h' hcloses c hc hblocker hclear :=
    h' hcloses c hc hblocker (h hcloses c hc hblocker hclear)

private theorem suits :
    Contract.SuitsEach (fun t ↦ cleanContract (requests t).closes) (fun _ _ ↦ True)
      (Undisturbed requests) where
  inv _ _ _ := .rfl
  cond _ _ := trivial
  compat hC hp _ _ hne hu hcls c hc hblk hcle := by
    by_contra hnot
    exact hC.not_clash hp hne hu ⟨hcls, c, hc, hblk, hcle, hnot⟩

private theorem safe_other (p : Txn chart) : (cleanContract false).Safe p held log db n := by
  induction p generalizing held log db n with
  | commit a => exact fun _ _ _ _ _ _ ↦ ⟨trivial, trivial, nofun⟩
  | rollback e => trivial
  | lock k next ih => exact fun _ _ _ _ _ _ ↦ ih
  | query q next ih => exact fun _ _ _ _ _ _ ↦ ih _

private theorem safe_ledger (p : Prog (Accounting.schema chart)) (h : Clean db) :
    (cleanContract true).Safe (p.lift (ledgerPart chart)) held log db n := by
  induction p generalizing held log db n with
  | commit a =>
    intro db' n' _ hr _ _
    exact ⟨trivial, trivial, fun _ c hc hblk ↦ hr rfl c hc hblk (h c hc hblk)⟩
  | rollback e => trivial
  | lock k next ih =>
    intro db' n' _ hr _ _
    exact ih fun c hc hblk ↦ hr rfl c hc hblk (h c hc hblk)
  | query q next ih =>
    intro db' n' _ hr _ _
    exact ih _ fun c hc hblk ↦ hr rfl c hc hblk (h c hc hblk)

private theorem passed_count {before checks : List Check} {c : Check}
    (h : before ++ c :: checks = periodCloseChecks) : passed (.query (.count c) next) = before := by
  have hnd : (before ++ c :: checks).Nodup := by
    rw [h]
    decide
  have hbef : ∀ k ∈ before, decide (k ≠ c) := fun k hk ↦
    decide_eq_true fun hkc ↦ List.disjoint_of_nodup_append hnd hk (hkc ▸ mem_cons_self)
  rw [passed, ← h, List.takeWhile_append_of_pos hbef, List.takeWhile_cons_of_neg (by simp),
    append_nil]

/-- As long as no blocker was counted, the checks so far are clear. -/
theorem safe_periodCloseChecklist (before : List Check) {checks : List Check} {blockers : ℕ}
    (hnx : ∀ blockers db n, (blockers = 0 → Clean db) →
      (cleanContract true).Safe (next blockers) held [] db n)
    (hche : before ++ checks = periodCloseChecks)
    (h : blockers = 0 → ∀ c ∈ before, c.blocker → Clear db c) :
    (cleanContract true).Safe (periodCloseChecklist chart next checks blockers) held [] db n := by
  induction checks generalizing before blockers db n with
  | nil =>
    refine hnx _ _ _ fun hz ↦ ?_
    rw [Clean, ← hche, append_nil]
    exact h hz
  | cons c checks ih =>
    refine Contract.safe_reply rfl fun db1 n1 hr _ (count : ℕ) hcnt ↦ ?_
    refine ih (before ++ [c]) ((append_assoc ..).trans hche) fun hz k hk hblk ↦ ?_
    have hspl : blockers = 0 ∧ (c.blocker → count = 0) := by
      split at hz
      · exact ⟨Nat.eq_zero_of_add_eq_zero_right hz, fun _ ↦ Nat.eq_zero_of_add_eq_zero_left hz⟩
      next hno => exact ⟨hz, fun hyes ↦ absurd hyes hno⟩
    rcases mem_snoc.mp hk with hk | rfl
    · exact hr rfl k (passed_count hche ▸ hk) hblk (h hspl.1 k hk hblk)
    · intro x hx
      have hz : db1.items.countP (fun x ↦ k.counts x.2) = 0 := hcnt.trans (hspl.2 hblk)
      simpa using countP_eq_zero.mp hz x hx

theorem safe_request (r : Request chart) : (cleanContract r.closes).Safe r.prog ∅ [] db n := by
  have hcl : ∀ p : Prog (Accounting.schema chart), (cleanContract true).Safe
      (periodCloseChecklist chart (fun blockers ↦ if 0 < blockers then .rollback (.http 422
        "period has unresolved close-checklist blockers; clear them before closing or locking")
      else p.lift (ledgerPart chart)) periodCloseChecks 0) ∅ [] db n := by
    refine fun p ↦ safe_periodCloseChecklist [] (fun blockers db n h ↦ ?_) rfl nofun
    split
    · trivial
    next hpos => exact safe_ledger p (h (Nat.eq_zero_of_not_pos hpos))
  cases r with
  | transition edge id actorId now =>
    cases edge with
    | startClose => exact safe_other _
    | closePeriod => exact hcl _
    | reopenPeriod => exact safe_other _
    | lockPeriod => exact hcl _
  | other p => exact safe_other p

/-- In every run in which no commit disturbs a closing transition in progress, periods are closed
and locked over a clean checklist. -/
theorem cleanLaw_of_undisturbed [DecidableEq T] {db₀ : CloseDb} {n₀ : ℕ}
    {s : State (schema chart) T}
    (h : Reach (Undisturbed requests) (State.init db₀ n₀ fun t ↦ (requests t).prog) s) :
    CleanLaw requests s :=
  (Contract.soundEach (suits requests) (fun h ↦ h) trivial (fun t ↦ safe_request (requests t)) h).2

/-- What `handleCreateCashReconciliation` does to the counted tables. -/
def createCashReconciliation (id : Uuid) : Txn chart :=
  .query (.statement fun _ ↦ [(id, .cashReconciliation .draft)]) fun _ ↦ .commit .done

/-- A period is closed, and a cash reconciliation is created. -/
def closeAndDraft : Bool → Request smallChart
  | true => .transition .closePeriod 0 8 5
  | false => .other (createCashReconciliation 7)

/-- The first day: one period in closing and nothing else. -/
def closingDb : CloseDb := ⟨⟨[smallPeriod .closing], [], []⟩, []⟩

/-- The draft is committed after its table was counted and before the period is closed. -/
theorem not_cleanLaw_of_late_draft : ∃ s : State (schema smallChart) Bool,
    Reach (fun _ _ ↦ True) (State.init closingDb 1 fun t ↦ (closeAndDraft t).prog) s ∧
      ¬CleanLaw closeAndDraft s :=
  exists_of_runs (turns [(true, 1), (false, 2), (true, 10)]) (by decide +kernel)

/-- The draft is created after the period was closed. -/
theorem cleanLaw_of_undisturbed_inTurn : ∃ s : State (schema smallChart) Bool,
    Reach (Undisturbed closeAndDraft) (State.init closingDb 1 fun t ↦ (closeAndDraft t).prog) s ∧
      s.commits.length = 2 ∧ CleanLaw closeAndDraft s := by
  refine exists_and_imp (fun s ↦ s.commits.length = 2)
    (exists_of_runs (turns [(true, 11), (false, 2)]) (by decide +kernel)) ?_
  rintro s hs hlen
  exact ⟨hlen, cleanLaw_of_undisturbed closeAndDraft hs⟩

end FuelGrid.Close
