import FuelGrid.Accounting.Calls
import FuelGrid.Accounting.Reversal
import FuelGrid.Revenue.Consistency

/-!
# The receivables control account

A credit tender charges the customer in `ar_entries` and debits the receivables account in the same
transaction, so that the two ledgers agree. A customer's payment on account credits nothing: it is
an entry of `ar_entries` only. What the requests have moved on the account is therefore what they
have written to `ar_entries` (`CouplingLaw`) as long as no payment on account is of a cent or more
(`couplingLaw_of_settlesNothing`).
-/

namespace FuelGrid.Revenue

open Sql
open Accounting (netOn netOn_append netOn_cons)

/-! ## The requests

The law assumes that the accounts and the periods are set up; a charge is not posted otherwise. -/

/-- The requests that write receivables. -/
inductive ArOp where
  | recordPayment (req : PaymentRequest)
  | recordCustomerPayment (req : CustomerPaymentRequest)

def ArOp.prog (env : Env) : ArOp → Txn env
  | .recordPayment req => handleRecordPayment env req
  | .recordCustomerPayment req => handleRecordCustomerPayment env req

/-- A period covers the date of the posting. -/
def ArOp.Covered (env : Env) (db : RevenueDb) : ArOp → Prop
  | .recordPayment req => ∃ p ∈ db.ledger.periods,
      p.startDate ≤ env.dateOf req.now ∧ env.dateOf req.now ≤ p.endDate
  | .recordCustomerPayment _ => True

instance (env : Env) (db : RevenueDb) : DecidablePred (ArOp.Covered env db)
  | .recordPayment req => inferInstanceAs (Decidable (∃ p ∈ db.ledger.periods,
      p.startDate ≤ env.dateOf req.now ∧ env.dateOf req.now ≤ p.endDate))
  | .recordCustomerPayment _ => .isTrue trivial

/-- A payment on account is for less than half a cent. -/
def ArOp.SettlesNothing : ArOp → Prop
  | .recordPayment _ => True
  | .recordCustomerPayment req => ∀ a ∈ (-req.amount).store 14 2, a = 0

instance : DecidablePred ArOp.SettlesNothing
  | .recordPayment _ => .isTrue trivial
  | .recordCustomerPayment req =>
    inferInstanceAs (Decidable (∀ a ∈ (-req.amount).store 14 2, a = 0))

/-- Since `db₀`, the lines of the journal have moved the account by what the entries of the
customers add up to. -/
def CouplingLaw (account : Uuid) (db₀ db : RevenueDb) : Prop :=
  ∃ lines entries, db.ledger.lines = db₀.ledger.lines ++ lines ∧
    db.credit.entries = db₀.credit.entries ++ entries ∧
    netOn lines account = (entries.map (·.amount)).sum

/-! ## What a request does to the two ledgers -/

/-- The law, with ids that were drawn before `n`. -/
structure Coupled (account : Uuid) (db₀ db : RevenueDb) (n : ℕ) : Prop where
  law : CouplingLaw account db₀ db
  lines_lt : ∀ l ∈ db.ledger.lines, l.journalEntryId < n
  charges_lt : ∀ e ∈ db.ledger.entries, e.sourceType = "ar_charge" → ∀ i ∈ e.sourceId, i < n

theorem Coupled.mono {account : Uuid} {db₀ db : RevenueDb} {n m : ℕ} (h : Coupled account db₀ db n)
    (hn : n ≤ m) : Coupled account db₀ db m where
  law := h.law
  lines_lt l hl := (h.lines_lt l hl).trans_le hn
  charges_lt e he hty i hi := (h.charges_lt e he hty i hi).trans_le hn

theorem Coupled.congr {account : Uuid} {db₀ db db' : RevenueDb} {n : ℕ}
    (h : Coupled account db₀ db n) (hled : db'.ledger = db.ledger)
    (hents : db'.credit.entries = db.credit.entries) : Coupled account db₀ db' n := by
  obtain ⟨⟨lines, entries, hlns, hes, hnet⟩, hlt, hchs⟩ := h
  exact ⟨⟨lines, entries, hled ▸ hlns, hents.trans hes, hnet⟩, hled ▸ hlt,
    hled ▸ hchs⟩

variable {p : Payment} {e : Credit.AREntry}

section Charge

variable {env : Env} {account : Uuid} {db₀ db : RevenueDb} {n m : ℕ}

/-- A charge of the amount that its entry debits to the account. -/
theorem Coupled.charge (h : Coupled account db₀ db n) {actor : Uuid}
    {je : JournalEntry} {lines : List JournalLine}
    (haccount : env.chart.systemAccount "accounts_receivable" = some account)
    (hpst : Posts env.chart (creditChargeEntry env p actor) n m je lines)
    (hp : p.id < m) (hamt : e.amount = p.amount) :
    Coupled account db₀
      (replay (S := schema env) db (.insertPayment p :: .credit (.insertEntry e) ::
      (Accounting.Write.insertEntry je :: lines.map .insertLine).map .ledger)) m := by
  have hnm : n ≤ m := hpst.le_id.trans hpst.id_lt.le
  obtain ⟨d, c, hpair, hd, hc, hdeb, hcr, -, -⟩ := Accounting.PostedLine.pair hpst.posted
  obtain ⟨⟨ls, es, hls, hes, hnet⟩, hlns, hchs⟩ := h
  have hd : d.accountId = account := some.inj (hd.symm.trans haccount)
  have hc : c.accountId ≠ account := fun heq ↦
    absurd (Accounting.Chart.systemKey_eq (heq ▸ hc) haccount) (by decide)
  rw [replay_cons, replay_cons, show Write.ledger = (ledgerPart env).write from rfl,
    (ledgerPart env).replay_write]
  refine ⟨⟨ls ++ lines, es ++ [e], ?_, ?_, ?_⟩, fun l hl ↦ ?_, fun e' he' hty i hi ↦ ?_⟩
  · change (replay (S := Accounting.schema env.chart) db.ledger _).lines = _
    rw [lines_posted, hls, append_assoc]
  · change db.credit.entries ++ [e] = _
    rw [hes, append_assoc]
  · rw [netOn_append, hnet, hpair, netOn_cons, netOn_cons, if_pos hd, if_neg hc, hdeb, hcr,
      sub_zero, map_append, sum_append, map_singleton, sum_singleton, hamt,
      zero_add]
    exact congrArg _ (add_zero _)
  · change l ∈ (replay (S := Accounting.schema env.chart) db.ledger _).lines at hl
    rw [lines_posted] at hl
    rcases mem_append.mp hl with hl | hl
    · exact (hlns l hl).trans_le hnm
    · exact hpst.lines_lt l hl
  · change e' ∈ (replay (S := Accounting.schema env.chart) db.ledger _).entries at he'
    rw [Accounting.entries_posted] at he'
    rcases mem_snoc.mp he' with he' | rfl
    · exact (hchs e' he' hty i hi).trans_le hnm
    · rw [hpst.sourceId] at hi
      exact some.inj hi ▸ hp

end Charge

section Rules

variable {env : Env} {account : Uuid} {db₀ db : RevenueDb} {n m : ℕ}

/-- What is committed alone keeps the two ledgers coupled. -/
def KeepsCoupled (account : Uuid) (db₀ db : RevenueDb) (n : ℕ) (p : Txn env) (view : RevenueDb)
    (m : ℕ) : Prop :=
  p.Yields db (fun _ (db' : RevenueDb) n' ↦ n ≤ n' → Coupled account db₀ db' n') view m

private theorem keepsCoupled_commitPayment {view : RevenueDb} (hvw : Coupled account db₀ view m) :
    KeepsCoupled account db₀ db n (commitPayment env p) view m :=
  yields_commitPayment fun _ _ ↦ (hvw.mono (by omega)).congr rfl rfl

variable (hdb : Coupled account db₀ db n)

include hdb

variable {req : PaymentRequest} {clearing : Uuid}

section Accounts

variable (haccount : env.chart.systemAccount "accounts_receivable" = some account)
  (hclearing : env.chart.systemAccount "sales_clearing" = some clearing)

include haccount hclearing

section Period

variable (hperiod : ∃ q ∈ db.ledger.periods,
    q.startDate ≤ env.dateOf p.receivedAt ∧ env.dateOf p.receivedAt ≤ q.endDate)
  (hid : n ≤ p.id) (hid' : p.id < m)

include hperiod hid hid'

/-- The entry of a charge is posted, as its payment is new and the ledger is set up. -/
theorem keepsCoupled_postCreditChargeJournal {now : ℤ} (hamt : e.amount = p.amount) :
    KeepsCoupled account db₀ db n
      (postCreditChargeJournal env p req.actor now (commitPayment env p))
      ((db.apply (.insertPayment p)).apply (.credit (.insertEntry e))) m := by
  have hn : n ≤ m + 1 := (hid.trans hid'.le).trans (le_succ m)
  refine yields_reply rfl fun found hfd ↦ ?_
  have hfd : decide (∃ e ∈ db.ledger.entries, e.sourceType = "ar_charge" ∧ e.sourceId = some p.id)
    = found := hfd
  rcases found with _ | _
  swap
  · obtain ⟨e', he', hty, hsou⟩ := of_decide_eq_true hfd
    exact absurd (hdb.charges_lt e' he' hty p.id hsou) (not_lt.mpr hid)
  refine Accounting.yields_postCall env.chart ?_ (fun err ws m' href ↦ ?_)
    fun je lines m' hpst ↦ ?_
  · exact fun l hl ↦ (hdb.lines_lt l hl).trans_le hn
  · -- what stops the posting without an error is that the ledger is not set up
    have hacc : err ≠ .errSystemAccount := fun h ↦ by
      obtain ⟨ln, hln, hno⟩ := href.account h
      rcases mem_cons.mp hln with rfl | hln
      · exact absurd (hno.symm.trans haccount) (by simp)
      · rw [mem_singleton.mp hln] at hno
        exact absurd (hno.symm.trans hclearing) (by simp)
    have hcov : err ≠ .errNoPeriod := fun h ↦ by
      obtain ⟨q, hq, hdat⟩ := hperiod
      exact href.period h q hq hdat
    rcases err with _ | _ | _ | _ | _ | _ | _ | _ | _ | _ | _ | _
    all_goals first
      | exact absurd rfl hacc
      | exact absurd rfl hcov
      | trivial
  · have hm : m + 1 ≤ m' := hpst.le_id.trans hpst.id_lt.le
    refine keepsCoupled_commitPayment ?_
    exact hdb.charge haccount (hpst.mono hn le_rfl) (hid'.trans_le ((le_succ m).trans hm)) hamt

/-- A new payment keeps the ledgers coupled, with a charge or without. -/
theorem keepsCoupled_chargeCustomer (hamt : req.amount.store 14 2 = some p.amount) :
    KeepsCoupled account db₀ db n (chargeCustomer env req p (commitPayment env p))
      (db.apply (.insertPayment p)) m := by
  unfold chargeCustomer
  split
  · refine Prog.yields_call (answers_postCharge _ _ _ _) fun ws r m' hm hws ↦ ?_
    rcases r with err | a
    · rcases err with _ | _ | _ | _ | _ | _ | _ | _ <;> trivial
    · obtain ⟨e, rfl, he⟩ := hws
      exact keepsCoupled_postCreditChargeJournal hdb haccount hclearing hperiod hid
        (hid'.trans_le hm) (some.inj (he.symm.trans hamt))
  · exact keepsCoupled_commitPayment ((hdb.mono (hid.trans hid'.le)).congr rfl rfl)

end Period

theorem keepsCoupled_handleRecordPayment (hperiod : (ArOp.recordPayment req).Covered env db) :
    KeepsCoupled account db₀ db n (handleRecordPayment env req) db n := by
  refine yields_handleRecordPayment_record fun shift tender key _ _ _ ↦ ?_
  refine yields_record (fun p m _ _ ↦ hdb.mono) fun p m hm hins ↦ ?_
  have hp := insertPayment_eq_some hins
  have hperiod : ∃ q ∈ db.ledger.periods,
      q.startDate ≤ env.dateOf p.receivedAt ∧ env.dateOf p.receivedAt ≤ q.endDate := by
    rw [hp.receivedAt]
    exact hperiod
  exact keepsCoupled_chargeCustomer hdb haccount hclearing hperiod
    (hp.id ▸ (le_succ n).trans hm) (hp.id ▸ lt_succ_self m) hp.amount

end Accounts

theorem keepsCoupled_handleRecordCustomerPayment {req : CustomerPaymentRequest}
    (hop : (ArOp.recordCustomerPayment req).SettlesNothing) :
    KeepsCoupled account db₀ db n (handleRecordCustomerPayment env req) db n := by
  refine yields_handleRecordCustomerPayment fun e o m n' _ hins hm ↦ ?_
  obtain ⟨⟨lines, es, hlns, hes, hnet⟩, hlt, hchs⟩ := hdb.mono hm
  refine ⟨⟨lines, es ++ [e], hlns, ?_, ?_⟩, hlt, hchs⟩
  · change db.credit.entries ++ [e] = _
    rw [hes, append_assoc]
  · obtain ⟨-, -, hamt, -⟩ := Credit.insertPayment_eq_ok hins
    rw [map_append, sum_append, map_singleton, sum_singleton,
      hop e.amount hamt, add_zero]
    exact hnet

end Rules

/-- While no payment on account is of a cent or more, what the requests have moved on the
receivables account is what they have written to the customers' entries. -/
theorem couplingLaw_of_settlesNothing {env : Env} {account clearing : Uuid} {s₀ s : RevenueDb × ℕ}
    (haccount : env.chart.systemAccount "accounts_receivable" = some account)
    (hclearing : env.chart.systemAccount "sales_clearing" = some clearing)
    (hlines : ∀ l ∈ s₀.1.ledger.lines, l.journalEntryId < s₀.2)
    (hcharges : ∀ e ∈ s₀.1.ledger.entries, e.sourceType = "ar_charge" → ∀ i ∈ e.sourceId, i < s₀.2)
    (hrun : Runs (S := schema env) (ArOp.prog env)
      (fun db op ↦ op.Covered env db ∧ op.SettlesNothing) s₀ s) :
    CouplingLaw account s₀.1 s.1 := by
  have hinit : Coupled account s₀.1 s₀.1 s₀.2 :=
    ⟨⟨[], [], (append_nil _).symm, (append_nil _).symm, rfl⟩, hlines, hcharges⟩
  have hs : Coupled account s₀.1 s.1 s.2 := by
    refine Runs.invariant (I := fun s : RevenueDb × ℕ ↦ Coupled account s₀.1 s.1 s.2) hrun hinit
      fun s op hs hop ↦ ?_
    let R : Except HttpError RevenueResult × RevenueDb × ℕ → Prop := fun out ↦
      Coupled account s₀.1 out.2.1 out.2.2
    change R ((op.prog env).alone s.1 [] s.2)
    refine alone_of_yields (fun _ _ hn ↦ hs.mono hn) ?_
    rcases op with req | req
    · exact keepsCoupled_handleRecordPayment hs haccount hclearing hop.1
    · exact keepsCoupled_handleRecordCustomerPayment hs hop.2
  exact hs.law

def chargeOnAccount (amount : ℚ) : ArOp :=
  .recordPayment { pay amount with tenderType := some .credit, customerId := some 1 }

/-- A payment of 40.00 on account leaves the receivables account where the charge took it. -/
theorem not_couplingLaw_of_settlement :
    ∃ s, Runs (S := schema .plain) (ArOp.prog .plain) (fun db op ↦ op.Covered .plain db)
      (oneSale, 100) s ∧ ¬CouplingLaw 1 oneSale s.1 := by
  refine exists_and_imp (fun s ↦ netOn s.1.ledger.lines 1 ≠ (s.1.credit.entries.map (·.amount)).sum)
    (exists_of_runAll [chargeOnAccount 60, .recordCustomerPayment ⟨1, .finite 40⟩]
      (by decide +kernel)) ?_
  intro s _ hne h
  obtain ⟨lines, es, hlns, hes, hnet⟩ := h
  obtain rfl : s.1.ledger.lines = lines := hlns
  obtain rfl : s.1.credit.entries = es := hes
  exact hne hnet

theorem couplingLaw_of_settlesNothing_charge :
    ∃ s, Runs (S := schema .plain) (ArOp.prog .plain)
      (fun db op ↦ op.Covered .plain db ∧ op.SettlesNothing) (oneSale, 100) s ∧
        s.1.ledger.lines ≠ [] ∧ CouplingLaw 1 oneSale s.1 := by
  refine exists_and_imp (fun s ↦ s.1.ledger.lines ≠ [])
    (exists_of_runAll [chargeOnAccount 60] (by decide +kernel)) ?_
  rintro _ hs hpd
  have hclearing : Env.plain.chart.systemAccount "sales_clearing" = some 2 := by decide
  exact ⟨hpd, couplingLaw_of_settlesNothing (by decide) hclearing
    (fun l hl ↦ absurd hl not_mem_nil) (fun e he ↦ absurd he not_mem_nil) hs⟩

end FuelGrid.Revenue
