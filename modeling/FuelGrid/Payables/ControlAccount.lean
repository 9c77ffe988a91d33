import FuelGrid.Accounting.Reversal
import FuelGrid.Payables.SubLedger

/-!
# The accounts-payable control account

The entries of imports and payments should leave on the accounts-payable account what is outstanding
of the payables (`ControlLaw`).
-/

namespace FuelGrid.Payables

open Sql
open Accounting (netOn netOn_append netOn_cons)

/-- The lines that were added to the journal since `db₀` leave on the account, on the credit side,
what is outstanding. -/
def ControlLaw (account : Uuid) (db₀ db : PayablesDb) : Prop :=
  ∃ new, db.ledger.lines = db₀.ledger.lines ++ new ∧
    -netOn new account = (db.payables.map (·.outstandingAmount)).sum

/-- A payment is not paid out of the control account. -/
def PayablesOp.PaidElsewhere : PayablesOp → Prop
  | .importPayables _ _ _ _ => True
  | .recordPayment req => req.srcKey ≠ "accounts_payable"

instance : DecidablePred PayablesOp.PaidElsewhere
  | .importPayables _ _ _ _ => .isTrue trivial
  | .recordPayment req => inferInstanceAs (Decidable (req.srcKey ≠ "accounts_payable"))

/-! ## What was imported less what was allocated

An import credits the account with the amount of the payable. A payment debits it with each
allocation, rounded to cents as the allocation is recorded, so that the account always shows what
was imported less what was allocated (`ApStep.controlled`); whether this is also what is outstanding
is the law of open items. -/

/-- What the lines leave on the account is what was imported less what was allocated. -/
def ApBooks.Controlled (b : ApBooks) (account : Uuid) (new : List JournalLine) : Prop :=
  -netOn new account = (b.items.map (·.amount)).sum + -(b.allocations.map (·.amount)).sum

section Step

variable {chart : Chart} {account : Uuid} {n n' : ℕ}
  (haccount : chart.systemAccount "accounts_payable" = some account)

include haccount

theorem PostedFor.netOn_eq {items : List Item} {groups : List (List JournalLine)}
    (h : Forall₂ (PostedFor chart n n') items groups) :
    -netOn groups.flatten account = (items.map (·.amount)).sum := by
  induction h with
  | nil => rfl
  | @cons i lines items groups hpd _ ih =>
    obtain ⟨d, c, rfl, hd, hc, -, -, hdb, hcr⟩ := hpd.lines_eq
    have hne : d.accountId ≠ account := fun heq ↦ by
      have := Accounting.Chart.systemKey_eq (heq ▸ hd) haccount
      exact absurd this (by decide)
    have heq : c.accountId = account := some.inj (hc.symm.trans haccount)
    rw [List.flatten_cons, List.cons_append, List.cons_append, nil_append, netOn_cons, netOn_cons,
      if_neg hne, if_pos heq, zero_add, hdb, hcr, zero_sub, neg_add_rev, neg_neg, ih, add_comm]
    rfl

/-- The entry of a payment debits the account with the allocations that it records. -/
theorem Draws.netOn_eq {payment entry : Uuid} {src : String} {items items' : List Item}
    {als : List AllocationRequest} {as : List PaymentAllocation} {lines : List JournalLine}
    (hsrc : src ≠ "accounts_payable") (h : Draws payment items als as items')
    (hpd : Forall₂ (PostedLine chart entry) (als.flatMap (allocationLines src))
      lines) :
    netOn lines account = (as.map (·.amount)).sum := by
  induction h generalizing lines with
  | nil items =>
    obtain rfl := forall₂_nil_left_iff.mp hpd
    rfl
  | cons hi hdraw _ ih =>
    obtain ⟨d, lines, hd, htail, rfl⟩ := forall₂_cons_left_iff.mp hpd
    obtain ⟨c, lines, hc, hrest, rfl⟩ := forall₂_cons_left_iff.mp htail
    have heq : d.accountId = account := some.inj (hd.account.symm.trans haccount)
    have hne : c.accountId ≠ account := fun h ↦
      hsrc (Accounting.Chart.systemKey_eq (h ▸ hc.account) haccount)
    have hdb := some.inj (hd.debit.symm.trans hdraw.recorded)
    have hcr : d.credit = 0 := store_ofUnits (ofUnits_zero 2 ▸ hd.credit)
    rw [netOn_cons, netOn_cons, if_pos heq, if_neg hne, zero_add, hdb, hcr, sub_zero, ih hrest]
    rfl

/-- A step keeps the account in line with what was imported and allocated. -/
theorem ApStep.controlled {b b' : ApBooks} {op : PayablesOp} {lines₀ new : List JournalLine}
    (h : ApStep chart b n n' op b') (hop : op.PaidElsewhere) (hkd : b.Keyed n)
    (hlns : b.lines = lines₀ ++ new) (hb : b.Controlled account new) :
    ∃ new', b'.lines = lines₀ ++ new' ∧ b'.Controlled account new' := by
  rcases h with _ | @⟨_, _, _, _, items, groups, -, -, hpd⟩ |
    @⟨req, _, _, items, as, _, _, lines, -, -, -, hdra, hpd⟩
  · exact ⟨new, hlns, hb⟩
  · refine ⟨new ++ groups.flatten, ?_, ?_⟩
    · rw [hlns, append_assoc]
    · rw [ApBooks.Controlled, netOn_append, neg_add_rev, hb, PostedFor.netOn_eq haccount hpd,
        map_append, sum_append, ← add_assoc, add_comm (items.map _).sum]
  · refine ⟨new ++ lines, ?_, ?_⟩
    · rw [hlns, append_assoc]
    · rw [ApBooks.Controlled, netOn_append, neg_add_rev, hb, hdra.netOn_eq haccount hop hpd.posted,
        map_append, sum_append, hdra.map_eq (fun _ _ _ ↦ rfl) hkd.item_ids, neg_add_rev,
        add_left_comm]

end Step

/-! ## Runs

Two kinds of payments break the law: those that allocate parts of a cent, and those that are paid
out of `accounts_payable` itself, which credit the account with what they debit it with. The law
holds in every run without them (`controlLaw_of_wholeCentsElsewhere`). -/

theorem ApBooks.Conserved.sum_outstanding {b : ApBooks} (h : b.Conserved) :
    (b.items.map (·.outstanding)).sum
      = (b.items.map (·.amount)).sum + -(b.allocations.map (·.amount)).sum := by
  have hsum := Sql.Conserved.sum_outstanding h fun _ ↦ True
  have hall : b.items.filter (fun _ ↦ True) = b.items := filter_eq_self.mpr fun _ _ ↦ rfl
  have hlv : (b.allocations.map (·.part)).filter (fun a ↦ a.1 ∈ b.items.map itemView.id)
      = b.allocations.map (·.part) :=
    filter_eq_self.mpr fun a ha ↦ decide_eq_true (h.known a ha)
  rw [hall, hlv, map_map] at hsum
  exact hsum

/-- Since the journal had the lines `lines₀`, the account has been kept in line. -/
structure InLine (account : Uuid) (lines₀ : List JournalLine) (db : PayablesDb) (n : ℕ) : Prop where
  keyed : db.books.Keyed n
  conserved : db.books.Conserved
  controlled : ∃ new, db.books.lines = lines₀ ++ new ∧ db.books.Controlled account new

theorem InLine.controlLaw {account : Uuid} {db₀ db : PayablesDb} {n : ℕ}
    (h : InLine account db₀.ledger.lines db n) : ControlLaw account db₀ db := by
  obtain ⟨new, hlns, hnew⟩ := h.controlled
  refine ⟨new, hlns, ?_⟩
  rw [hnew, ← h.conserved.sum_outstanding, PayablesDb.books, map_map]
  rfl

theorem PayablesOp.inLine {env : Env} {account : Uuid} {lines₀ : List JournalLine} {op : PayablesOp}
    {db : PayablesDb} {n : ℕ} (haccount : env.chart.systemAccount "accounts_payable" = some account)
    (h : InLine account lines₀ db n) (hwh : op.WholeCents) (hpaid : op.PaidElsewhere) :
    InLine account lines₀ ((op.prog env).alone db [] n).2.1 ((op.prog env).alone db [] n).2.2 := by
  have hst : Stepped env db n op ((op.prog env).alone db [] n) := op.step h.keyed
  obtain ⟨new, hlns, hnew⟩ := h.controlled
  exact ⟨hst.keyed h.keyed (Prog.le_alone_stamp _ _ _ _), hst.conserved h.keyed hwh h.conserved,
    hst.controlled haccount hpaid h.keyed hlns hnew⟩

/-- In every run whose payments allocate whole cents and are paid out of another account, the
control account shows what is outstanding. -/
theorem controlLaw_of_wholeCentsElsewhere {env : Env} {account : Uuid} {s₀ s : PayablesDb × ℕ}
    (haccount : env.chart.systemAccount "accounts_payable" = some account)
    (hpayables : s₀.1.payables = []) (hpayments : s₀.1.payments = [])
    (hallocations : s₀.1.allocations = [])
    (hlines : ∀ l ∈ s₀.1.ledger.lines, l.journalEntryId < s₀.2)
    (hrun : Runs (S := schema env) (PayablesOp.prog env)
      (fun _ op ↦ op.WholeCents ∧ op.PaidElsewhere) s₀ s) :
    ControlLaw account s₀.1 s.1 := by
  have hbk := books_of_empty hpayables hpayments hallocations hlines
  have hemp : s₀.1.books.Controlled account [] := by
    rw [ApBooks.Controlled, PayablesDb.books, hpayables, hallocations]
    rfl
  have hinit : InLine account s₀.1.ledger.lines s₀.1 s₀.2 :=
    ⟨hbk.keyed, hbk.conserved, [], (append_nil _).symm, hemp⟩
  have hs := Runs.invariant
    (I := fun s : PayablesDb × ℕ ↦ InLine account s₀.1.ledger.lines s.1 s.2) hrun hinit
    fun s op hs hop ↦ op.inLine haccount hs hop.1 hop.2
  exact hs.controlLaw

/-- Half a cent is debited as a cent and leaves the payable as it was. -/
theorem not_controlLaw_of_half_cent :
    ∃ s, Runs (S := schema .small) (PayablesOp.prog .small) (fun _ op ↦ op.PaidElsewhere)
      (nothingImported, 100) s ∧ ¬ControlLaw 3 nothingImported s.1 := by
  refine exists_and_imp
    (fun s ↦ -netOn s.1.ledger.lines 3 ≠ (s.1.payables.map (·.outstandingAmount)).sum)
    (exists_of_runAll [importOne, payPart 1 101 0.005 ""] (by decide +kernel)) ?_
  intro s _ hne h
  obtain ⟨new, hnew, heq⟩ := h
  obtain rfl : s.1.ledger.lines = new := hnew
  exact hne heq

/-- A payment of 0.40 from the bank on a payable of 1.00. -/
theorem controlLaw_of_wholeCentsElsewhere_part :
    ∃ s, Runs (S := schema .small) (PayablesOp.prog .small)
      (fun _ op ↦ op.WholeCents ∧ op.PaidElsewhere) (nothingImported, 100) s ∧
        s.1.allocations ≠ [] ∧ ControlLaw 3 nothingImported s.1 := by
  refine exists_and_imp (fun s ↦ s.1.allocations ≠ [])
    (exists_of_runAll [importOne, payPart 1 101 0.4 ""] (by decide +kernel)) ?_
  rintro _ hs hpaid
  exact ⟨hpaid, controlLaw_of_wholeCentsElsewhere (by decide) rfl rfl rfl
    (fun l hl ↦ absurd hl not_mem_nil) hs⟩

end FuelGrid.Payables
