import FuelGrid.Receivables.Books

/-!
# The customer-invoice sub-ledger

Invoices are open items: what is outstanding of an invoice should be its amount less the allocations
of the payments that were not reversed (`SubLedgerLaw`). A payment writes the two sides with
different roundings. `ApplyInvoicePayment` subtracts the text of the allocation from the column, and
decides on the status with the exact difference; `AddCustomerAllocation` records the rounded text.
An allocation of half a cent leaves the invoice where it was and records a cent; one of `0.996`
against `1.00` leaves nothing outstanding of an invoice that is not paid.
-/

namespace FuelGrid.Receivables

open Sql

def restored (db : ReceivablesDb) (a : PaymentAllocation) : Option CustomerInvoice :=
  (restoreInvoice db a.customerInvoiceId a.amount).toOption.join

/-- When the allocations are restored one after the other, the cap at the amount changes no
value. -/
def CapIdle : ReceivablesDb → List PaymentAllocation → Prop
  | _, [] => True
  | db, a :: as =>
    (∀ i ∈ db.invoices, i.id = a.customerInvoiceId →
      least (i.outstandingAmount + a.amount) i.amount = i.outstandingAmount + a.amount) ∧
    ∀ i ∈ restored db a, CapIdle (db.apply (.setInvoice i)) as

instance CapIdle.decidable : (db : ReceivablesDb) → (as : List PaymentAllocation) →
    Decidable (CapIdle db as)
  | _, [] => .isTrue trivial
  | db, a :: as =>
    have (i : CustomerInvoice) := CapIdle.decidable (db.apply (.setInvoice i)) as
    inferInstanceAs (Decidable (_ ∧ ∀ i ∈ restored db a, CapIdle (db.apply (.setInvoice i)) as))

/-- What the sub-ledger should satisfy. -/
structure SubLedgerLaw (db : ReceivablesDb) : Prop where
  outstanding : ∀ i ∈ db.invoices, i.outstandingAmount = i.amount - taken db.live i.id
  bounds : ∀ i ∈ db.invoices, 0 ≤ i.outstandingAmount ∧ i.outstandingAmount ≤ i.amount
  paid_iff : ∀ i ∈ db.invoices, i.status = .paid ↔ i.outstandingAmount = 0
  cap : ∀ p ∈ db.payments, p.status = .posted → CapIdle db (db.allocationsOf p.id)

instance (db : ReceivablesDb) : Decidable (SubLedgerLaw db) :=
  decidable_of_iff
    ((∀ i ∈ db.invoices, i.outstandingAmount = i.amount - taken db.live i.id) ∧
      (∀ i ∈ db.invoices, 0 ≤ i.outstandingAmount ∧ i.outstandingAmount ≤ i.amount) ∧
      (∀ i ∈ db.invoices, i.status = .paid ↔ i.outstandingAmount = 0) ∧
      ∀ p ∈ db.payments, p.status = .posted → CapIdle db (db.allocationsOf p.id))
    ⟨fun h ↦ ⟨h.1, h.2.1, h.2.2.1, h.2.2.2⟩, fun h ↦ ⟨h.outstanding, h.bounds, h.paid_iff, h.cap⟩⟩

def ReceivablesOp.WholeCents : ReceivablesOp → Prop
  | .postPayment req => ∀ al ∈ req.allocations, al.amount.Whole 2
  | .createInvoice _ | .issueInvoice _ _ _ | .reversePayment _ _ _ _ => True

instance : DecidablePred ReceivablesOp.WholeCents
  | .postPayment req => inferInstanceAs (Decidable (∀ al ∈ req.allocations, al.amount.Whole 2))
  | .createInvoice _ => .isTrue trivial
  | .issueInvoice _ _ _ => .isTrue trivial
  | .reversePayment _ _ _ _ => .isTrue trivial

variable {live : List (Uuid × Money)} {as : List PaymentAllocation}

private theorem capIdle_of_conserved {db : ReceivablesDb}
    (hcons : Conserved invoiceView db.invoices (as.map (·.part) ++ live)) : CapIdle db as := by
  induction as generalizing db with
  | nil => trivial
  | cons a as ih =>
    refine ⟨fun i hi hid ↦ least_restore hcons hi hid, fun i hi ↦ ?_⟩
    rcases hrest : restoreInvoice db a.customerInvoiceId a.amount with e | _ | i' <;>
      rw [restored, hrest] at hi <;> cases hi
    exact ih (restoreInvoice_eq_some hcons hrest)

theorem Books.subLedgerLaw {db : ReceivablesDb} {n : ℕ} (h : Books db n) : SubLedgerLaw db where
  outstanding i hi := (h.conserved.outstanding i hi).trans (sub_eq_add_neg _ _).symm
  bounds i hi := ⟨h.conserved.nonneg i hi, h.conserved.le_amount i hi⟩
  paid_iff := h.conserved.paid_iff
  cap p hp hpd :=
    capIdle_of_conserved (h.conserved.perm (live_perm (mem_posted.mpr ⟨p, hp, hpd, rfl⟩)))

/-! ## The handlers keep the books -/

/-- The books at the end of a transaction. -/
def Kept (out : Except HttpError ReceivablesResult × ReceivablesDb × ℕ) : Prop :=
  Books out.2.1 out.2.2

/-- What is committed alone, with the rows `view` when it goes on, is in good books. -/
def Keeps (env : Env) (db : ReceivablesDb) (p : Txn env) (view : ReceivablesDb) (m : ℕ) : Prop :=
  p.Yields db (fun _ db' n' ↦ Books db' n') view m

section Rules

variable {env : Env} {db view : ReceivablesDb} {n m : ℕ} {next : Txn env} {req : InvoiceRequest}
  {actor id invoice : Uuid} {now : ℤ} {p : CustomerPayment} {reason : Option String}

theorem keeps_commit {a : ReceivablesResult} (hvw : Books view m) :
    Keeps env db (commit a) view m := by
  refine yields_read rfl fun r ↦ ?_
  rcases r with e | _
  · trivial
  · exact hvw.mono (le_succ m)

private theorem keeps_call {p : Accounting.Txn env.chart}
    {k : Except AccountingError AccountingResult → Txn env}
    (hvw : Books view m)
    (hk : ∀ r view' m', m ≤ m' → Books view' m' → Keeps env db (k r) view' m') :
    Keeps env db (p.call (ledgerPart env) k) view m :=
  Prog.yields_call (Prog.answers_any _ _) fun ws r m' hm _ ↦ by
    refine hk r _ m' hm (Books.mono ?_ hm)
    rw [(ledgerPart env).replay_write]
    exact ⟨hvw.conserved, hvw.payment_ids, hvw.allocation_payment, hvw.invoices_lt, hvw.payments_lt⟩

private theorem keeps_answerEntry {k : PostedEntry → Txn env}
    {r : Except AccountingError AccountingResult}
    (hk : ∀ e, Keeps env db (k e) view m) : Keeps env db (answerEntry k r) view m := by
  rcases r with e | a
  · trivial
  · dsimp only [answerEntry]
    rcases a.entry? with _ | e
    · trivial
    · exact hk e

private theorem keeps_addLines {lns : List LineRequest}
    (hnx : ∀ (lines : List InvoiceLine) m', lines.length = lns.length → m ≤ m' →
      (∀ l ∈ lines, l.customerInvoiceId = invoice) →
      Keeps env db next { view with lines := view.lines ++ lines } m') :
    Keeps env db (addLines env invoice next lns) view m := by
  induction lns generalizing view m with
  | nil =>
    have := hnx [] m rfl le_rfl nofun
    rwa [append_nil] at this
  | cons ln lns ih =>
    unfold addLines
    split
    · trivial
    refine yields_step fun ws r hout ↦ ?_
    obtain ⟨e, -, rfl, rfl⟩ | ⟨l, hins, rfl, rfl⟩ := logged_eq hout
    · trivial
    · refine ih fun lines m' hlen hm hlns ↦ ?_
      have hrs : view.lines ++ [l] ++ lines = view.lines ++ l :: lines := append_assoc ..
      change Keeps env db next { view with lines := view.lines ++ [l] ++ lines } m'
      rw [hrs]
      exact hnx (l :: lines) m' (congrArg (· + 1) hlen) ((le_succ m).trans hm)
        (forall_mem_cons.mpr ⟨insertLine_eq_ok hins, hlns⟩)

/-- The amount of a new invoice is that of its lines, which is positive. -/
theorem keeps_finishInvoice (hdb : Books db n) {i : CustomerInvoice} {lines : List InvoiceLine}
    (hn : n ≤ i.id) (hm : i.id < m) (hdrf : i.status = .draft) (hne : lines ≠ [])
    (hlns : ∀ l ∈ lines, l.customerInvoiceId = i.id) :
    Keeps env db (finishInvoice env i.id)
      { db with invoices := db.invoices ++ [i], lines := db.lines ++ lines } m := by
  rw [finishInvoice, Keeps, yields_lock]
  refine yields_step fun ws r hout ↦ ?_
  obtain ⟨e, -, rfl, rfl⟩ | ⟨-, rfl, rfl⟩ | ⟨i', hfin, rfl, rfl⟩ := loggedRow_eq hout
  · trivial
  · trivial
  obtain ⟨x, hx, hxid, hid, hst, hleft, hamt⟩ := finalizeAmount_eq_some hfin
  -- the row found is the new one, as the ids of the others were drawn before
  have hfr : i'.id ∉ db.invoices.map (·.id) := fun hmem ↦ by
    obtain ⟨y, hy, hyid⟩ := mem_map.mp hmem
    exact absurd (hdb.invoices_lt y hy)
      (not_lt.mpr (hn.trans_eq (hyid.trans (hid.trans hxid)).symm))
  obtain rfl : x = i := by
    rcases mem_snoc.mp hx with hx | rfl
    · exact absurd (mem_map.mpr ⟨x, hx, hid.symm⟩) hfr
    · rfl
  have hpos : 0 < i'.amount := by
    rw [hamt]
    refine sum_lines_pos fun hnil ↦ hne (List.eq_nil_iff_forall_not_mem.mpr fun l hl ↦ ?_)
    have hmem : l ∈ (db.lines ++ lines).filter (·.customerInvoiceId = x.id) :=
      mem_filter.mpr ⟨mem_append_right _ hl, decide_eq_true (hlns l hl)⟩
    have hnil : (db.lines ++ lines).filter (·.customerInvoiceId = x.id) = [] := hnil
    rw [hnil] at hmem
    exact not_mem_nil hmem
  have hpaid : i'.status ≠ .paid := by
    rw [hst, hdrf]
    decide
  have hbk := hdb.insertInvoice (db.lines ++ lines) (hn.trans_eq hid.symm)
    (hid.trans_lt hm) hleft hpos hpaid
  refine keeps_commit ?_
  have hrs : (db.invoices ++ [x]).map (fun y ↦ if y.id = i'.id then i' else y)
      = db.invoices ++ [i'] := update_append_singleton hfr hid.symm
  change Books { db with
    invoices := (db.invoices ++ [x]).map fun y ↦ if y.id = i'.id then i' else y
    lines := db.lines ++ lines } (m + 1)
  rw [hrs]
  exact hbk.mono (le_succ m)

private theorem keeps_createInvoice (hdb : Books db n) {customerId : Uuid} {invoiceDate : ℤ}
    (hlns : req.lines ≠ []) : Keeps env db (createInvoice env req customerId invoiceDate) db n := by
  refine yields_step fun ws r hout ↦ ?_
  obtain ⟨e, -, rfl, rfl⟩ | ⟨i, hins, rfl, rfl⟩ := logged_eq hout
  · cases e <;> trivial
  · obtain ⟨hid, hdrf⟩ := insertInvoice_eq_ok hins
    refine keeps_addLines fun lines m hlen hm hmn ↦ ?_
    refine keeps_finishInvoice hdb hid.ge (hid.trans_lt hm) hdrf (fun hnil ↦ hlns ?_) hmn
    rw [← List.length_eq_zero_iff, ← hlen, hnil]
    rfl

theorem keeps_handleCreateCustomerInvoice (hdb : Books db n) :
    Keeps env db (handleCreateCustomerInvoice env req) db n := by
  unfold handleCreateCustomerInvoice
  split
  · trivial
  split
  · trivial
  next hlns =>
    split
    · trivial
    · exact keeps_createInvoice hdb hlns
    · exact keeps_createInvoice hdb hlns

/-- Issuing an invoice and linking it to its entry leaves its figures alone. -/
theorem keeps_handleIssueCustomerInvoice (hdb : Books db n) :
    Keeps env db (handleIssueCustomerInvoice env actor id now) db n := by
  rw [handleIssueCustomerInvoice, Keeps, yields_lock]
  refine yields_step fun ws r hout ↦ ?_
  obtain ⟨-, rfl, rfl⟩ | ⟨i', hiss, rfl, rfl⟩ := loggedUpdate_eq hout
  · trivial
  obtain ⟨i, hi, hdrf, rfl⟩ := issueInvoice_eq_some hiss
  have hunp : InvoiceStatus.issued = .paid ↔ i.status = .paid := by
    rw [hdrf]
    decide
  have hisu := hdb.setInvoice { i with status := .issued } hi rfl rfl rfl hunp
  refine yields_read rfl fun groups ↦ ?_
  refine keeps_call (hisu.mono (by omega : n ≤ n + 2)) fun r view m _ hvw ↦ ?_
  refine keeps_answerEntry fun e ↦ ?_
  refine yields_step fun ws r hout ↦ keeps_commit ?_
  obtain ⟨-, rfl, rfl⟩ | ⟨i'', hset, rfl, rfl⟩ := loggedUpdate_eq hout
  · exact hvw.mono (le_succ m)
  · obtain ⟨i1, hfi, rfl⟩ := map_eq_some_iff.mp hset
    exact (hvw.setInvoice { i1 with journalEntryId := some e.entry.id }
      (mem_of_find?_eq_some hfi) rfl rfl rfl .rfl).mono (le_succ m)

private theorem keeps_refuseAllocation {customer : Uuid} :
    Keeps env db (refuseAllocation env customer invoice) view m := by
  refine yields_read rfl ?_
  rintro (_ | owner)
  · trivial
  · dsimp only
    split <;> trivial

/-- One allocation of whole cents: the draw, its allocation and the totals of the payment. -/
theorem keeps_allocation {al : AllocationRequest} (hwh : al.amount.Whole 2) (hvw : Books view m)
    (hpd : p.id ∈ view.posted)
    (hnx : ∀ view' m', Books view' m' → p.id ∈ view'.posted → Keeps env db next view' m') :
    Keeps env db (.query (.applyPayment p.customerId al.customerInvoiceId al.amount)
      (answerApply env p al next)) view m := by
  refine yields_step fun ws r hout ↦ ?_
  obtain ⟨e, -, rfl, rfl⟩ | ⟨-, rfl, rfl⟩ | ⟨i', happ, rfl, rfl⟩ := loggedRow_eq hout
  · trivial
  · exact keeps_refuseAllocation
  refine yields_step fun ws r hout ↦ ?_
  obtain ⟨e, -, rfl, rfl⟩ | ⟨a, hins, rfl, rfl⟩ := logged_eq hout
  · cases e <;> trivial
  obtain ⟨hpay, hinv, hamt⟩ := insertAllocation_eq_ok hins
  obtain ⟨i, hi, hid, hdr⟩ := applyPayment_eq_some hwh hamt happ
  have hbk := hvw.allocate hi hdr (hinv.trans hid.symm) (hpay ▸ hpd)
  refine yields_step fun ws r hout ↦ ?_
  obtain ⟨e, -, rfl, rfl⟩ | ⟨-, rfl, rfl⟩ | ⟨p', hbump, rfl, rfl⟩ := loggedRow_eq hout
  · trivial
  · exact hnx _ _ (hbk.mono (by omega)) hpd
  · obtain ⟨q, hq, hqid, hst⟩ := bumpPayment_eq_some hbump
    refine hnx _ _ ((hbk.setPayment p' hq hqid hst).mono (by omega)) ?_
    exact (hbk.posted_setPayment p' hq hqid hst).symm ▸ hpd

private theorem keeps_allocate {als : List AllocationRequest} (hwh : ∀ al ∈ als, al.amount.Whole 2)
    (hvw : Books view m) (hpd : p.id ∈ view.posted)
    (hnx : ∀ view' m', Books view' m' → Keeps env db next view' m') :
    Keeps env db (allocate env p next als) view m := by
  induction als generalizing view m with
  | nil => exact hnx view m hvw
  | cons al als ih =>
    obtain ⟨hal, hals⟩ := forall_mem_cons.mp hwh
    unfold allocate
    split
    · trivial
    rw [Keeps, yields_lock]
    exact keeps_allocation hal hvw hpd fun view' m' hvw' hpd' ↦ ih hals hvw' hpd'

private theorem keeps_finishPayment {req : PaymentRequest} {payment : Uuid} {date : ℤ}
    (hvw : Books view m) :
    Keeps env db (finishPayment env req payment date) view m := by
  refine keeps_call hvw fun r view' m' _ hvw' ↦ keeps_answerEntry fun e ↦ ?_
  refine yields_step fun ws r hout ↦ keeps_commit ?_
  obtain ⟨-, rfl, rfl⟩ | ⟨p', hset, rfl, rfl⟩ := loggedUpdate_eq hout
  · exact hvw'.mono (le_succ m')
  · obtain ⟨p, hfi, rfl⟩ := map_eq_some_iff.mp hset
    exact (hvw'.setPayment { p with journalEntryId := some e.entry.id }
      (mem_of_find?_eq_some hfi) rfl rfl).mono (le_succ m')

theorem keeps_handlePostCustomerPayment (hdb : Books db n) {req : PaymentRequest}
    (hwh : ∀ al ∈ req.allocations, al.amount.Whole 2) :
    Keeps env db (handlePostCustomerPayment env req) db n := by
  unfold handlePostCustomerPayment
  split
  · trivial
  split
  · trivial
  split
  · trivial
  refine yields_step fun ws r hout ↦ ?_
  obtain ⟨e, -, rfl, rfl⟩ | ⟨p, hins, rfl, rfl⟩ := logged_eq hout
  · cases e <;> trivial
  obtain ⟨hid, hst⟩ := insertPayment_eq_ok hins
  have hpd : p.id ∈ (db.apply (.insertPayment p)).posted :=
    mem_posted.mpr ⟨p, mem_concat_self, hst, rfl⟩
  exact keeps_allocate hwh (hdb.insertPayment hid) hpd fun _ _ ↦ keeps_finishPayment

private theorem keeps_restore
    (hcons : Conserved invoiceView view.invoices (as.map (·.part) ++ live))
    (hnx : ∀ invoices m', m ≤ m' → invoices.map (·.id) = view.invoices.map (·.id) →
      Conserved invoiceView invoices live → Keeps env db next { view with invoices } m') :
    Keeps env db (restore env next as) view m := by
  induction as generalizing view m with
  | nil => exact hnx _ m le_rfl rfl hcons
  | cons a as ih =>
    rw [restore, Keeps, yields_lock]
    refine yields_step fun ws r hout ↦ ?_
    obtain ⟨e, -, rfl, rfl⟩ | ⟨hrest, rfl, rfl⟩ | ⟨i', hrest, rfl, rfl⟩ := loggedRow_eq hout
    · trivial
    · exact absurd hrest (restoreInvoice_ne_none hcons)
    refine ih (restoreInvoice_eq_some hcons hrest) fun invoices m' hm hids hcon' ↦ ?_
    exact hnx invoices m' ((le_succ m).trans hm) (hids.trans (map_key_update _ i')) hcon'

private theorem keeps_reverseJournal (hvw : Books view m) :
    Keeps env db (reverseJournal env actor p reason now) view m := by
  unfold reverseJournal
  split
  · exact keeps_commit hvw
  · refine keeps_call hvw fun r view' m' _ hvw' ↦ ?_
    unfold answerReversal
    split
    · trivial
    · exact keeps_answerEntry fun e ↦ keeps_commit hvw'

theorem keeps_handleReverseCustomerPayment (hdb : Books db n) :
    Keeps env db (handleReverseCustomerPayment env actor id reason now) db n := by
  rw [handleReverseCustomerPayment, Keeps, yields_lock]
  refine yields_reply rfl fun p hp ↦ ?_
  have hp : db.payments.find? (·.id = id) = p := hp
  rcases p with _ | p
  · trivial
  obtain ⟨hmem, rfl⟩ := key_of_find? hp
  dsimp only
  split
  · trivial
  next hst =>
    have hpd : p.id ∈ db.posted := mem_posted.mpr ⟨p, hmem, not_not.mp hst, rfl⟩
    refine yields_reply rfl fun as has ↦ ?_
    have has : db.allocationsOf p.id = as := has
    subst has
    refine keeps_restore (hdb.conserved.perm (live_perm hpd)) fun invoices m hm hids hcons ↦ ?_
    refine yields_step fun ws r hout ↦ ?_
    have hout : loggedUpdate .setPayment (voidPayment { db with invoices } p.id) = (ws, r) := hout
    have hvoid : voidPayment { db with invoices } p.id = some { p with status := .voided } :=
      congrArg (Option.map _) hp
    rw [hvoid] at hout
    cases hout
    exact keeps_reverseJournal ((hdb.voidPayment hmem hids hcons).mono (by omega))

end Rules

/-! ## Runs

For allocations of whole cents the two sides agree (`subLedgerLaw_of_wholeCents`), over any sequence
of invoices, payments and reversals. -/

theorem ReceivablesOp.kept (env : Env) {op : ReceivablesOp} {db : ReceivablesDb} {n : ℕ}
    (hdb : Books db n) (hop : op.WholeCents) : Kept ((op.prog env).alone db [] n) := by
  refine alone_of_yields (S := schema env) (R := Kept) (fun _ _ hn ↦ hdb.mono hn)
    (Prog.Yields.imp (fun _ _ _ h _ ↦ h) (?_ : Keeps env db (op.prog env) db n))
  rcases op with req | ⟨actor, id, now⟩ | req | ⟨actor, id, reason, now⟩
  · exact keeps_handleCreateCustomerInvoice hdb
  · exact keeps_handleIssueCustomerInvoice hdb
  · exact keeps_handlePostCustomerPayment hdb hop
  · exact keeps_handleReverseCustomerPayment hdb

/-- In every run whose allocations are of whole cents the sub-ledger keeps its law. -/
theorem subLedgerLaw_of_wholeCents {env : Env} {s₀ s : ReceivablesDb × ℕ} (hbooks : Books s₀.1 s₀.2)
    (hrun : Runs (S := schema env) (ReceivablesOp.prog env) (fun _ op ↦ op.WholeCents) s₀ s) :
    SubLedgerLaw s.1 := by
  have hs : Books s.1 s.2 := Runs.invariant (I := fun s : ReceivablesDb × ℕ ↦ Books s.1 s.2) hrun
    hbooks fun s op hs hop ↦ op.kept env hs hop
  exact hs.subLedgerLaw

/-- Receivables, sales and bank. -/
def Env.small : Env where
  positive
    | .nan => true
    | .infinity negative => !negative
    | .finite x => 0 < x
  chart := {
    accounts := [
      ⟨1, "1100", "Bank", .asset, .debit, some "bank", .active⟩,
      ⟨2, "1200", "Receivables", .asset, .debit, some "accounts_receivable", .active⟩,
      ⟨3, "4000", "Sales", .income, .credit, some "sales_revenue", .active⟩]
    ids_nodup := by decide }

def nothingInvoiced : ReceivablesDb where
  customers := [1]
  stations := []
  invoices := []
  lines := []
  payments := []
  allocations := []
  ledger := { periods := [Accounting.smallPeriod .opened], entries := [], lines := [] }

theorem books_nothingInvoiced (n : ℕ) : Books nothingInvoiced n where
  conserved := by
    refine ⟨nodup_nil, ?_, ?_, ?_, ?_, ?_, ?_⟩ <;> exact fun _ h ↦ absurd h not_mem_nil
  payment_ids := nodup_nil
  allocation_payment := nofun
  invoices_lt _ h := absurd h not_mem_nil
  payments_lt := nofun

def invoiceOne : ReceivablesOp := .createInvoice {
  actor := 9
  customerId := some 1
  invoiceDate := .day 3
  sourceType := ""
  sourceId := none
  stationId := none
  lines := [⟨.finite 1, ""⟩]
  today := 3 }

def payPart (invoice : Uuid) (amount : ℚ) : ReceivablesOp := .postPayment {
  actor := 9
  customerId := some 1
  paymentDate := some 4
  method := "transfer"
  sourceAccountKey := ""
  allocations := [⟨invoice, .finite amount⟩]
  now := 4 }

/-- Half a cent is allocated as a cent and leaves the invoice as it was. -/
theorem not_subLedgerLaw_of_half_cent :
    ∃ s, Runs (S := schema .small) (ReceivablesOp.prog .small) (fun _ _ ↦ True)
      (nothingInvoiced, 100) s ∧ ¬SubLedgerLaw s.1 :=
  exists_of_runAll [invoiceOne, .issueInvoice 9 100 3, payPart 100 0.005] (by decide +kernel)

/-- A payment of 0.40 on an invoice of 1.00, and its reversal. -/
theorem subLedgerLaw_of_wholeCents_reversed :
    ∃ s, Runs (S := schema .small) (ReceivablesOp.prog .small) (fun _ op ↦ op.WholeCents)
      (nothingInvoiced, 100) s ∧ (∃ p ∈ s.1.payments, p.status = .voided) ∧ SubLedgerLaw s.1 := by
  refine exists_and_imp (fun s ↦ ∃ p ∈ s.1.payments, p.status = .voided)
    (exists_of_runAll [invoiceOne, .issueInvoice 9 100 3, payPart 100 0.4,
    .reversePayment 9 115 none 5] (by decide +kernel)) ?_
  rintro _ hs hvoi
  exact ⟨hvoi, subLedgerLaw_of_wholeCents (books_nothingInvoiced 100) hs⟩

end FuelGrid.Receivables
