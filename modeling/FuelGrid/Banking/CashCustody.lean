import FuelGrid.Banking.Effects
import FuelGrid.Sql.OpenItems

/-!
# Cash custody

A deposit should carry cash that has been counted: each of its lines should refer to a posted
reconciliation of the deposit's station and take no more than was counted there, so that no station
ever has less than no cash on hand (`CustodyLaw`). `AddDepositLine` is documented to attach a posted
reconciliation, but its insert checks no more than that the reconciliation exists and has no line
yet. A deposit can take more than was counted, or cash of another station, or cash that nobody has
counted.
-/

namespace FuelGrid.Banking

open Sql
open Accounting (PostedLine exists_append_of_forall₂ netOn netOn_amountPair netOn_append)

/-- A deposit line takes counted cash of the deposit's station. -/
def Backed (recons : List CashReconciliation) (d : BankDeposit) (l : DepositLine) : Prop :=
  ∃ c ∈ recons, c.id = l.reconId ∧ c.status = .posted ∧ c.stationId = d.stationId ∧
    l.amount ≤ c.countedCash

/-- What the custody of cash should satisfy, for the lines that were added to the journal since
`db₀`. -/
structure CustodyLaw (chart : Chart) (db₀ db : BankingDb) : Prop where
  backed : ∀ l ∈ db.depositLines, ∀ d ∈ db.deposits, d.id = l.depositId →
    d.status = .prepared ∨ d.status = .posted → Backed db.recons d l
  cash_nonneg : ∃ new, db.ledger.lines = db₀.ledger.lines ++ new ∧ ∀ account station,
    chart.systemAccount "cash_on_hand" = some account →
      0 ≤ netOn (new.filter (·.stationId = some station)) account

/-- Each line of a requested deposit names a posted reconciliation of the deposit's station, and no
more than was counted there. -/
def BankingOp.Covered (db : BankingDb) : BankingOp → Prop
  | .createDeposit req =>
    ∀ ln ∈ req.lines, ∃ c ∈ db.recons, c.id = ln.reconId ∧ c.status = .posted ∧
      req.stationId = some c.stationId ∧ ∀ amount ∈ ln.amount.store 14 2, amount ≤ c.countedCash
  | _ => True

instance (db : BankingDb) : DecidablePred (BankingOp.Covered db)
  | .createRecon _ _ _ _ => .isTrue trivial
  | .submitRecon _ _ _ => .isTrue trivial
  | .approveRecon _ _ _ => .isTrue trivial
  | .createDeposit req => inferInstanceAs (Decidable (∀ ln ∈ req.lines, ∃ c ∈ db.recons,
      c.id = ln.reconId ∧ c.status = .posted ∧ req.stationId = some c.stationId ∧
        ∀ amount ∈ ln.amount.store 14 2, amount ≤ c.countedCash))
  | .prepareDeposit _ _ _ _ => .isTrue trivial
  | .confirmDeposit _ _ _ _ => .isTrue trivial

/-! ## What was counted and what was banked -/

namespace Cash

variable (b : Cash) (station : Uuid)

/-- The cash that the posted reconciliations of a station have counted. -/
def counted : Money :=
  ((b.recons.filter fun c ↦ c.status = .posted ∧ c.stationId = station).map (·.countedCash)).sum

def banked : Money :=
  ((b.deposits.filter fun d ↦ d.status ≠ .draft ∧ d.stationId = station).map (·.amount)).sum

end Cash

def CashReconciliation.countedAt (station : Uuid) (c : CashReconciliation) : Money :=
  if c.status = .posted ∧ c.stationId = station then c.countedCash else 0

def BankDeposit.bankedAt (station : Uuid) (d : BankDeposit) : Money :=
  if d.status ≠ .draft ∧ d.stationId = station then d.amount else 0

variable {c c' : CashReconciliation} {d d' : BankDeposit} {ls : List DepositLine} {amount : Money}
  {station : Option Uuid}

section Sums

variable {b : Cash} {n : ℕ}

theorem Cash.counted_eq (b : Cash) (station : Uuid) :
    b.counted station = (b.recons.map (·.countedAt station)).sum :=
  sum_map_filter _ _ _

theorem Cash.banked_eq (b : Cash) (station : Uuid) :
    b.banked station = (b.deposits.map (·.bankedAt station)).sum :=
  sum_map_filter _ _ _

theorem CashReconciliation.countedAt_of_not_posted (h : c.status ≠ .posted) (station : Uuid) :
    c.countedAt station = 0 :=
  if_neg fun hc ↦ h hc.1

theorem BankDeposit.bankedAt_of_draft (h : d.status = .draft) (station : Uuid) :
    d.bankedAt station = 0 :=
  if_neg fun hd ↦ hd.1 h

/-- A reconciliation that was not posted counts from now on, if it is posted. -/
theorem Cash.counted_setRecon (hkeyed : b.Keyed n) (hc : c ∈ b.recons) (hid : c.id = c'.id)
    (hst : c.status ≠ .posted) (station : Uuid) :
    (b.setRecon c').counted station = b.counted station + c'.countedAt station := by
  have hsum := sum_update hkeyed.recon_ids hc hid (·.countedAt station)
  rw [c.countedAt_of_not_posted hst, add_zero] at hsum
  rw [Cash.counted_eq, Cash.counted_eq]
  exact hsum

theorem Cash.banked_setDeposit (hkeyed : b.Keyed n) (hd : d ∈ b.deposits) (hid : d.id = d'.id)
    (hst : d.status = .draft) (station : Uuid) :
    (b.setDeposit d').banked station = b.banked station + d'.bankedAt station := by
  have hsum := sum_update hkeyed.deposit_ids hd hid (·.bankedAt station)
  rw [d.bankedAt_of_draft hst, add_zero] at hsum
  rw [Cash.banked_eq, Cash.banked_eq]
  exact hsum

/-- A deposit that keeps its summand. The amounts cannot be cancelled, since they may be `NaN`. -/
theorem Cash.banked_setDeposit_of_eq (hkeyed : b.Keyed n) (hd : d ∈ b.deposits)
    (hid : d.id = d'.id) {station : Uuid} (heq : d.bankedAt station = d'.bankedAt station) :
    (b.setDeposit d').banked station = b.banked station := by
  rw [Cash.banked_eq, Cash.banked_eq]
  refine congrArg List.sum (map_update fun x hx hk ↦ ?_)
  rw [inj_on_of_nodup_map hkeyed.deposit_ids hx hd (hk.trans hid.symm), heq]

end Sums

/-! ## What the entries leave on cash on hand -/

section Posted

variable {chart : Chart} {account entry : Uuid} {lines : List JournalLine} {key : String}
  {debit credit : Money}

private theorem netOn_moneyLine {station : Uuid}
    (h : Forall₂ (PostedLine chart entry) (moneyLine key debit credit station) lines) :
    netOn lines account = if chart.systemAccount key = some account then debit - credit else 0 := by
  unfold moneyLine at h
  split at h
  next hz =>
    obtain rfl := forall₂_nil_left_iff.mp h
    rw [hz.1, hz.2, sub_zero, ite_self, Accounting.netOn_nil]
  · exact Accounting.netOn_unitLine h

private theorem moneyLine_debit_nonneg {station : Uuid}
    (h : Forall₂ (PostedLine chart entry) (moneyLine key debit credit station) lines) :
    0 ≤ debit := by
  unfold moneyLine at h
  split at h
  next hz => exact hz.1.ge
  · obtain ⟨l, rest, hl, -, -⟩ := forall₂_cons_left_iff.mp h
    rw [← store_ofUnits hl.debit]
    exact l.amounts.1

private theorem moneyLine_station {station : Uuid} :
    ∀ ln ∈ moneyLine key debit credit station, ln.stationId = some station := by
  intro ln hln
  unfold moneyLine at hln
  split at hln
  · cases hln
  · rw [mem_singleton.mp hln]
    rfl

theorem CashPosting.lines_station (p : CashPosting) :
    ∀ ln ∈ p.lines, ln.stationId = some p.stationId := by
  intro ln hln
  simp only [CashPosting.lines, mem_append] at hln
  rcases hln with ((hln | hln) | hln) | hln <;> exact moneyLine_station ln hln

variable (haccount : chart.systemAccount "cash_on_hand" = some account)

include haccount

theorem systemAccount_ne (hkey : key ≠ "cash_on_hand") : chart.systemAccount key ≠ some account :=
  fun h ↦ hkey (Accounting.Chart.systemKey_eq h haccount)

theorem CashPosting.netOn_eq {p : CashPosting}
    (h : Forall₂ (PostedLine chart entry) p.lines lines) :
    netOn lines account = p.counted := by
  obtain ⟨abc, d, rfl, habc, hd⟩ := Accounting.exists_append_of_forall₂ h
  obtain ⟨ab, c, rfl, hab, hc⟩ := Accounting.exists_append_of_forall₂ habc
  obtain ⟨a, b, rfl, ha, hb⟩ := Accounting.exists_append_of_forall₂ hab
  have hclr : chart.systemAccount "sales_clearing" ≠ some account :=
    systemAccount_ne haccount (by decide)
  have hoverShort : chart.systemAccount "cash_over_short" ≠ some account :=
    systemAccount_ne haccount (by decide)
  rw [netOn_append, netOn_append, netOn_append, netOn_moneyLine ha, netOn_moneyLine hb,
    netOn_moneyLine hc, netOn_moneyLine hd, if_pos haccount, if_neg hclr, if_neg hoverShort,
    if_neg hoverShort, add_zero, add_zero, add_zero, sub_zero]

omit haccount in
theorem CashPosting.counted_nonneg {p : CashPosting}
    (h : Forall₂ (PostedLine chart entry) p.lines lines) : 0 ≤ p.counted := by
  obtain ⟨abc, d, rfl, habc, -⟩ := Accounting.exists_append_of_forall₂ h
  obtain ⟨ab, c, rfl, hab, -⟩ := Accounting.exists_append_of_forall₂ habc
  obtain ⟨a, b, rfl, ha, -⟩ := Accounting.exists_append_of_forall₂ hab
  exact moneyLine_debit_nonneg ha

private theorem netOn_prepared (h : Forall₂ (PostedLine chart entry)
      (amountPair "bank_clearing" "cash_on_hand" amount station) lines) :
    netOn lines account = -amount := by
  rw [netOn_amountPair h, if_neg (systemAccount_ne haccount (by decide)),
    if_pos haccount,
    zero_add]

private theorem netOn_confirmed (h : Forall₂ (PostedLine chart entry)
      (amountPair "bank" "bank_clearing" amount station) lines) :
    netOn lines account = 0 := by
  rw [netOn_amountPair h, if_neg (systemAccount_ne haccount (by decide)),
    if_neg (systemAccount_ne haccount (by decide)), add_zero]

end Posted

private theorem amountPair_station {debit credit : String} :
    ∀ ln ∈ amountPair debit credit amount station, ln.stationId = station := by
  simp [amountPair]

/-! ## Steps

What the journal shows is exact all the same: on the account of cash on hand each station has what
its posted reconciliations counted less what its deposits took (`CashStep.balance`). -/

/-- On the account, each station has what was counted less what was banked. -/
def Cash.Balanced (b : Cash) (account : Uuid) (new : List JournalLine) : Prop :=
  ∀ station, netOn (new.filter (·.stationId = some station)) account
    = b.counted station + -b.banked station

/-- What holds of the cash in every state of a covered run. -/
structure Cash.Covered (b : Cash) : Prop where
  backed : ∀ l ∈ b.depositLines, ∀ d ∈ b.deposits, d.id = l.depositId → Backed b.recons d l
  nonneg : ∀ c ∈ b.recons, c.status = .posted → 0 ≤ c.countedCash
  total : ∀ d ∈ b.deposits, d.status ≠ .draft → d.amount = depositTotal b.depositLines d.id

variable {db : BankingDb} {lines₀ : List JournalLine} {account : Uuid}

section Step

variable {chart : Chart} {n n' : ℕ} {op : BankingOp}
  {out : Except HttpError BankingResult} {b b' : Cash} {new : List JournalLine}

theorem Cash.balanced_post {lines : List JournalLine} {st : Uuid} (hb : b.Balanced account new)
    (hlns : ∀ l ∈ lines, l.stationId = some st)
    (h : ∀ station, b.counted station + -b.banked station
      + (if st = station then netOn lines account else 0) =
      b'.counted station + -b'.banked station) :
    b'.Balanced account (new ++ lines) := by
  intro station
  rw [filter_append, netOn_append, hb station, Accounting.netOn_filter_station hlns]
  exact h station

/-- Every step, covered or not, keeps the account in line with the documents. -/
theorem CashStep.balance (haccount : chart.systemAccount "cash_on_hand" = some account)
    (h : CashStep chart b n n' op out b') (hkeyed : b.Keyed n) (hlns : b.lines = lines₀ ++ new)
    (hb : b.Balanced account new) :
    ∃ new', b'.lines = lines₀ ++ new' ∧ b'.Balanced account new' := by
  have hadd : ∀ lines, b.lines ++ lines = lines₀ ++ (new ++ lines) := fun lines ↦ by
    rw [hlns, append_assoc]
  cases h with
  | refused => exact ⟨new, hlns, hb⟩
  | @created _ _ _ _ c _ _ hst =>
    refine ⟨new, hlns, fun station ↦ ?_⟩
    have hctd : ({ b with recons := b.recons ++ [c] } : Cash).counted station
        = b.counted station := by
      rw [Cash.counted_eq, Cash.counted_eq, map_append, sum_append, map_singleton,
        sum_singleton, c.countedAt_of_not_posted (by rw [hst]; decide), add_zero]
    rw [hctd]
    exact hb station
  | @submitted _ _ c countedCash variance _ hc hst =>
    refine ⟨new, hlns, fun station ↦ ?_⟩
    have hdrf : c.status ≠ .posted := by rcases hst with h | h <;> rw [h] <;> decide
    have hctd : (b.setRecon { c with countedCash, variance, status := .submitted }).counted station
        = b.counted station := by
      refine (Cash.counted_setRecon hkeyed hc (by rfl) hdrf station).trans ?_
      rw [CashReconciliation.countedAt_of_not_posted (by simp), add_zero]
    rw [hctd]
    exact hb station
  | @approved actor _ c p e lines _ hc hst _ hstn hctd hpd =>
    refine ⟨new ++ lines, hadd lines, Cash.balanced_post hb
      (PostedLine.station_of_forall₂ hpd.posted p.lines_station) fun station ↦ ?_⟩
    have hsub : c.status ≠ .posted := by rw [hst]; decide
    have hnew : (b.setRecon { c with
        status := .posted, reviewedBy := some actor, journalEntryId := some e.id }).counted station
          = b.counted station + if c.stationId = station then c.countedCash else 0 := by
      refine (Cash.counted_setRecon hkeyed hc (by rfl) hsub station).trans ?_
      simp only [CashReconciliation.countedAt, true_and]
    rw [CashPosting.netOn_eq haccount hpd.posted, hstn, hctd, add_right_comm]
    exact congrArg (· + -b.banked station) hnew.symm
  | @deposited _ d ls _ _ hst =>
    refine ⟨new, hlns, fun station ↦ ?_⟩
    have hban : ({ b with deposits := b.deposits ++ [d], depositLines := b.depositLines ++ ls } :
        Cash).banked station = b.banked station := by
      rw [Cash.banked_eq, Cash.banked_eq, map_append, sum_append, map_singleton,
        sum_singleton, d.bankedAt_of_draft hst, add_zero]
    exact (hb station).trans (congrArg (b.counted station + -·) hban.symm)
  | @prepared _ _ _ _ d e lines hd hst hpd =>
    refine ⟨new ++ lines, hadd lines, Cash.balanced_post hb
      (PostedLine.station_of_forall₂ hpd.posted amountPair_station) fun station ↦ ?_⟩
    have hnew : (b.setDeposit { d with
        amount := depositTotal b.depositLines d.id, status := .prepared,
        preparedEntryId := some e.id }).banked station
          = b.banked station
            + if d.stationId = station then depositTotal b.depositLines d.id else 0 := by
      refine (Cash.banked_setDeposit hkeyed hd (by rfl) hst station).trans ?_
      simp only [BankDeposit.bankedAt, ne_eq, reduceCtorEq, not_false_eq_true, true_and]
    rw [netOn_prepared haccount hpd.posted]
    refine Eq.trans ?_ (congrArg (b.counted station + -·) hnew.symm)
    rw [neg_add_rev, add_comm (-ite _ _ _), add_assoc]
    congr 2
    split
    · rfl
    · exact neg_zero.symm
  | @confirmed _ actual _ d e lines hd hst hpd =>
    refine ⟨new ++ lines, hadd lines, Cash.balanced_post hb
      (PostedLine.station_of_forall₂ hpd.posted amountPair_station) fun station ↦ ?_⟩
    have hdrf : d.status ≠ .draft := by rcases hst with h | h | h <;> rw [h] <;> decide
    have hnew : (b.setDeposit { d with
        status := .posted, actualBankDate := some actual, confirmedEntryId := some e.id }).banked
          station = b.banked station := by
      refine Cash.banked_setDeposit_of_eq hkeyed hd (by rfl) ?_
      simp only [BankDeposit.bankedAt, ne_eq, hdrf, reduceCtorEq, not_false_eq_true, true_and]
    rw [netOn_confirmed haccount hpd.posted, ite_self, add_zero]
    exact congrArg (b.counted station + -·) hnew.symm

theorem Cash.Covered.post (hb : b.Covered) (lines : List JournalLine) : (b.post lines).Covered :=
  ⟨hb.backed, hb.nonneg, hb.total⟩

theorem Cash.Covered.setRecon (hb : b.Covered) (hkeyed : b.Keyed n) (hc : c ∈ b.recons)
    (hid : c.id = c'.id) (hst : c.status ≠ .posted)
    (hnn : c'.status = .posted → 0 ≤ c'.countedCash) : (b.setRecon c').Covered where
  backed l hl d hd hld := by
    obtain ⟨x, hx, hxl, hpd, hstn, hle⟩ := hb.backed l hl d hd hld
    -- a posted reconciliation is not the one that changes
    have hne : x.id ≠ c'.id := fun hk ↦
      hst (inj_on_of_nodup_map hkeyed.recon_ids hx hc (hk.trans hid.symm) ▸ hpd)
    exact ⟨x, mem_update_of_ne hx hne, hxl, hpd, hstn, hle⟩
  nonneg x hx hpd := by
    rcases mem_update hx with rfl | ⟨hx, -⟩
    · exact hnn hpd
    · exact hb.nonneg x hx hpd
  total := hb.total

theorem Cash.Covered.setDeposit (hb : b.Covered) (hd : d ∈ b.deposits) (hid : d.id = d'.id)
    (hstn : d.stationId = d'.stationId)
    (htot : d'.amount = depositTotal b.depositLines d'.id) : (b.setDeposit d').Covered where
  backed l hl x hx hxl := by
    rcases mem_update hx with rfl | ⟨hx, -⟩
    · obtain ⟨c, hc, hcl, hpd, hst, hle⟩ := hb.backed l hl d hd (hid.trans hxl)
      exact ⟨c, hc, hcl, hpd, hst.trans hstn, hle⟩
    · exact hb.backed l hl x hx hxl
  nonneg := hb.nonneg
  total x hx hsta := by
    rcases mem_update hx with rfl | ⟨hx, -⟩
    · exact htot
    · exact hb.total x hx hsta

theorem Cash.Covered.deposit (hb : b.Covered) (hkeyed : b.Keyed n) (hid : n ≤ d.id)
    (hst : d.status = .draft) (hdep : ∀ l ∈ ls, l.depositId = d.id)
    (hlns : ∀ l ∈ ls, Backed b.recons d l) :
    ({ b with
        deposits := b.deposits ++ [d]
        depositLines := b.depositLines ++ ls } : Cash).Covered where
  backed l hl x hx hxl := by
    rcases mem_append.mp hl with hl | hl <;> rcases mem_append.mp hx with hx | hx
    · exact hb.backed l hl x hx hxl
    · -- an old line is of an old deposit
      rw [mem_singleton.mp hx] at hxl
      exact absurd (hid.trans_eq hxl) (not_le.mpr (hkeyed.line_deposits l hl))
    · exact absurd (hid.trans_eq ((hdep l hl).symm.trans hxl.symm))
        (not_le.mpr (hkeyed.deposits_lt x hx))
    · rw [mem_singleton.mp hx]
      exact hlns l hl
  nonneg := hb.nonneg
  total x hx hout := by
    rcases mem_snoc.mp hx with hx | rfl
    · rw [hb.total x hx hout]
      have hno : ls.filter (·.depositId = x.id) = [] := filter_eq_nil_iff.mpr fun l hl heq ↦
        absurd (hid.trans_eq ((hdep l hl).symm.trans (of_decide_eq_true heq)))
          (not_le.mpr (hkeyed.deposits_lt x hx))
      rw [depositTotal, depositTotal, filter_append, hno, append_nil]
    · exact absurd hst hout

theorem Attached.backed {deposit : Uuid} {recons : List CashReconciliation} {lns : List LineRequest}
    (h : Forall₂ (Attached deposit) lns ls) (hstn : station = some d.stationId)
    (hcov : ∀ ln ∈ lns, ∃ c ∈ recons, c.id = ln.reconId ∧ c.status = .posted ∧
      station = some c.stationId ∧ ∀ amount ∈ ln.amount.store 14 2, amount ≤ c.countedCash) :
    ∀ l ∈ ls, Backed recons d l := by
  induction h with
  | nil => exact nofun
  | cons hl _ ih =>
    rw [forall_mem_cons] at hcov
    obtain ⟨⟨c, hc, hid, hpd, hst, hle⟩, hrest⟩ := hcov
    refine forall_mem_cons.mpr ⟨⟨c, hc, hid.trans hl.recon.symm, hpd, ?_, ?_⟩, ih hrest⟩
    · exact some.inj (hst.symm.trans hstn)
    · exact hle _ hl.amount

theorem CashStep.covered (h : CashStep chart db.cash n n' op out b') (hkeyed : db.cash.Keyed n)
    (hop : op.Covered db) (hb : db.cash.Covered) : b'.Covered := by
  cases h with
  | refused => exact hb
  | @created _ _ _ _ c _ _ hst =>
    refine { hb with backed := fun l hl d hd hld ↦ ?_, nonneg := fun x hx hpd ↦ ?_ }
    · obtain ⟨x, hx, hbac⟩ := hb.backed l hl d hd hld
      exact ⟨x, mem_append_left _ hx, hbac⟩
    · rcases mem_snoc.mp hx with hx | rfl
      · exact hb.nonneg x hx hpd
      · rw [hst] at hpd
        cases hpd
  | @submitted _ _ c _ _ _ hc hst =>
    have hdrf : c.status ≠ .posted := by rcases hst with h | h <;> rw [h] <;> decide
    exact hb.setRecon hkeyed hc (by rfl) hdrf nofun
  | @approved _ _ c p _ _ _ hc hst _ _ hctd hpd =>
    have hsub : c.status ≠ .posted := by rw [hst]; decide
    have hnn : 0 ≤ c.countedCash := hctd ▸ CashPosting.counted_nonneg hpd.posted
    exact (hb.setRecon hkeyed hc (by rfl) hsub (by exact fun _ ↦ hnn)).post _
  | deposited hid _ hst hstn hlns _ =>
    exact hb.deposit hkeyed hid hst (Attached.deposit_of_forall₂ hlns)
      (Attached.backed hlns hstn hop)
  | prepared hd hst _ => exact (hb.setDeposit hd (by rfl) (by rfl) (by rfl)).post _
  | @confirmed _ _ _ d _ _ hd hst _ =>
    have hdrf : d.status ≠ .draft := by rcases hst with h | h | h <;> rw [h] <;> decide
    exact (hb.setDeposit hd (by rfl) (by rfl) (by exact hb.total d hd hdrf)).post _

end Step

/-! ## Runs

The law holds in every run whose deposits are covered when they are created
(`custodyLaw_of_covered`), since a reconciliation is deposited at most once and a posted one does
not change. -/

section Bound

variable {b : Cash} {n : ℕ} (hb : b.Covered) (hkeyed : b.Keyed n) (station : Uuid)

include hb hkeyed

theorem Cash.Covered.banked_eq :
    b.banked station = ((b.depositLines.filter fun l ↦ l.depositId ∈
      (b.deposits.filter fun d ↦ d.status ≠ .draft ∧ d.stationId = station).map (·.id)).map
        (·.amount)).sum := by
  have hids : ((b.deposits.filter fun d ↦ d.status ≠ .draft ∧ d.stationId = station).map
    (·.id)).Nodup := hkeyed.deposit_ids.sublist (filter_sublist.map _)
  rw [← sum_by_key hids, map_map, Cash.banked]
  refine congrArg List.sum (map_congr_left fun d hd ↦ ?_)
  obtain ⟨hd, hout⟩ := mem_filter.mp hd
  exact hb.total d hd (of_decide_eq_true hout).1

theorem Cash.Covered.banked_le : b.banked station ≤ b.counted station := by
  rw [hb.banked_eq hkeyed, Cash.counted]
  have hrec : ((b.depositLines.filter fun l ↦ l.depositId ∈ (b.deposits.filter fun d ↦
      d.status ≠ .draft ∧ d.stationId = station).map (·.id)).map (·.reconId)).Nodup :=
    hkeyed.line_recons.sublist (filter_sublist.map _)
  refine sum_le_sum_of_covered CashReconciliation.id hrec (fun l hl ↦ ?_) fun c hc ↦ ?_
  · obtain ⟨hl, hdep⟩ := mem_filter.mp hl
    obtain ⟨d, hd, hld⟩ := mem_map.mp (of_decide_eq_true hdep)
    obtain ⟨hd, hout⟩ := mem_filter.mp hd
    obtain ⟨c, hc, hcl, hpd, hst, hle⟩ := hb.backed l hl d hd hld
    have hstn : c.stationId = station := hst.trans (of_decide_eq_true hout).2
    exact ⟨c, mem_filter.mpr ⟨hc, decide_eq_true ⟨hpd, hstn⟩⟩, hcl, hle⟩
  · obtain ⟨hc, hpd⟩ := mem_filter.mp hc
    exact hb.nonneg c hc (of_decide_eq_true hpd).1

theorem Cash.Covered.banked_nonneg : 0 ≤ b.banked station := by
  rw [hb.banked_eq hkeyed]
  refine List.sum_nonneg fun a ha ↦ ?_
  obtain ⟨l, -, rfl⟩ := mem_map.mp ha
  exact l.amount_pos.le

end Bound

/-- What a covered run keeps, since the journal had the lines `lines₀`. -/
structure Custody (chart : Chart) (lines₀ : List JournalLine) (db : BankingDb) (n : ℕ) :
    Prop where
  keyed : db.cash.Keyed n
  covered : db.cash.Covered
  added : ∃ new, db.cash.lines = lines₀ ++ new ∧ ∀ account,
    chart.systemAccount "cash_on_hand" = some account → db.cash.Balanced account new

theorem Custody.custodyLaw {chart : Chart} {db₀ : BankingDb} {n : ℕ}
    (h : Custody chart db₀.ledger.lines db n) : CustodyLaw chart db₀ db := by
  obtain ⟨new, hlns, hnew⟩ := h.added
  refine ⟨fun l hl d hd hld _ ↦ h.covered.backed l hl d hd hld, new, hlns, ?_⟩
  intro account station haccount
  rw [hnew account haccount station]
  exact (draw_bounds (h.covered.banked_nonneg h.keyed station) (h.covered.banked_le h.keyed station)
    le_rfl).1

theorem CashStep.lines_append {chart : Chart} {b b' : Cash} {n n' : ℕ} {op : BankingOp}
    {out : Except HttpError BankingResult} (h : CashStep chart b n n' op out b') :
    ∃ new, b'.lines = b.lines ++ new := by
  cases h with
  | approved => exact ⟨_, rfl⟩
  | prepared => exact ⟨_, rfl⟩
  | confirmed => exact ⟨_, rfl⟩
  | _ => exact ⟨[], (append_nil _).symm⟩

/-- A tenant with no reconciliations and no deposits, whatever is in the journal. -/
theorem custody_of_empty {chart : Chart} {n : ℕ} (hrec : db.recons = [])
    (hdeps : db.deposits = []) (hdepositLines : db.depositLines = [])
    (hlns : ∀ l ∈ db.ledger.lines, l.journalEntryId < n) :
    Custody chart db.ledger.lines db n := by
  have hcash : db.cash = ⟨[], [], [], db.ledger.lines⟩ := by
    rw [BankingDb.cash, hrec, hdeps, hdepositLines]
  refine ⟨hcash ▸ ⟨nodup_nil, ?_, nodup_nil, ?_, nodup_nil, ?_, hlns⟩,
    hcash ▸ ⟨?_, ?_, ?_⟩, [], (append_nil _).symm, fun account _ station ↦ ?_⟩
  case refine_7 =>
    rw [hcash]
    rfl
  all_goals exact nofun

theorem BankingOp.custody {env : Env} {op : BankingOp} {n : ℕ} (h : Custody env.chart lines₀ db n)
    (hop : op.Covered db) :
    Custody env.chart lines₀ ((op.prog env).alone db [] n).2.1
      ((op.prog env).alone db [] n).2.2 := by
  have hst : Stepped env db n op ((op.prog env).alone db [] n) := op.step h.keyed
  refine ⟨hst.keyed h.keyed (Prog.le_alone_stamp _ _ _ _), hst.covered h.keyed hop h.covered, ?_⟩
  obtain ⟨new, hlns, hnew⟩ := h.added
  -- a chart has at most one account of the key
  rcases haccount : env.chart.systemAccount "cash_on_hand" with _ | account
  · obtain ⟨new', hlns'⟩ := hst.lines_append
    refine ⟨new ++ new', ?_, nofun⟩
    rw [hlns', hlns, append_assoc]
  · obtain ⟨new', hlns', hnew'⟩ := hst.balance haccount h.keyed hlns (hnew account haccount)
    refine ⟨new', hlns', fun account' h ↦ ?_⟩
    rw [← some.inj h]
    exact hnew'

/-- In every run whose deposits are covered when they are created, every deposit carries counted
cash of its station and no station has less than no cash on hand. -/
theorem custodyLaw_of_covered {env : Env} {s₀ s : BankingDb × ℕ} (hrecons : s₀.1.recons = [])
    (hdeposits : s₀.1.deposits = []) (hdepositLines : s₀.1.depositLines = [])
    (hlines : ∀ l ∈ s₀.1.ledger.lines, l.journalEntryId < s₀.2)
    (hrun : Runs (S := schema env) (BankingOp.prog env) (fun db op ↦ op.Covered db) s₀ s) :
    CustodyLaw env.chart s₀.1 s.1 := by
  have hinit : Custody env.chart s₀.1.ledger.lines s₀.1 s₀.2 := custody_of_empty hrecons hdeposits
    hdepositLines hlines
  have hs := Runs.invariant
    (I := fun s : BankingDb × ℕ ↦ Custody env.chart s₀.1.ledger.lines s.1 s.2) hrun hinit
    fun s op hs hop ↦ op.custody hs hop
  exact hs.custodyLaw

/-- Two stations with a day each, one bank account, and the accounts that cash passes through. -/
def Env.small : Env where
  nonNegative
    | .nan => true
    | .infinity negative => !negative
    | .finite x => 0 ≤ x
  positive
    | .nan => true
    | .infinity negative => !negative
    | .finite x => 0 < x
  chart := {
    accounts := [
      ⟨1, "1000", "Cash on hand", .asset, .debit, some "cash_on_hand", .active⟩,
      ⟨2, "1050", "Bank clearing", .asset, .debit, some "bank_clearing", .active⟩,
      ⟨3, "1100", "Bank", .asset, .debit, some "bank", .active⟩,
      ⟨4, "1200", "Sales clearing", .asset, .debit, some "sales_clearing", .active⟩,
      ⟨5, "5900", "Cash over and short", .expense, .debit, some "cash_over_short", .active⟩]
    ids_nodup := by decide }
  stations := [1, 2]
  bankAccounts := [7]
  days := [⟨11, 3⟩, ⟨12, 3⟩]

/-- An open period and nothing reconciled yet. -/
def nothingCounted : BankingDb where
  recons := []
  deposits := []
  depositLines := []
  ledger := { periods := [Accounting.smallPeriod .opened], entries := [], lines := [] }

/-- User 8 opens the reconciliation of the day of station 1, in which 1000.00 were paid in cash. -/
def openDay : BankingOp := .createRecon 8 1 (some 11) [⟨11, true, true, 100000⟩]

/-- A deposit of station 1 that takes an amount from a reconciliation. -/
def depositOf (recon : Uuid) (amount : ℚ) : BankingOp := .createDeposit {
  actor := 8
  stationId := some 1
  bankAccountId := some 7
  badDate := false
  expectedBankDate := some 4
  lines := [⟨recon, .finite amount⟩] }

/-- A deposit of 49500.00 is prepared from a reconciliation that counted 1000.00. -/
theorem not_custodyLaw_of_uncovered :
    ∃ s, Runs (S := schema .small) (BankingOp.prog .small)
        (fun _ _ ↦ True) (nothingCounted, 100) s ∧
      ¬CustodyLaw Env.small.chart nothingCounted s.1 := by
  refine exists_and_imp
    (fun s ↦ netOn (s.1.ledger.lines.filter (·.stationId = some 1)) 1 = (-4850000 : ℤ))
    (exists_of_runAll [openDay, .submitRecon 8 100 (.finite 1000), .approveRecon 9 100 4,
    depositOf 100 49500, .prepareDeposit 8 115 4 4] (by decide +kernel)) ?_
  intro s _ hnet h
  obtain ⟨new, hnew, hnn⟩ := h.cash_nonneg
  obtain rfl : s.1.ledger.lines = new := hnew
  have := hnn 1 1 (by decide)
  rw [hnet] at this
  exact absurd this (by decide)

/-- The counted 1000.00 are deposited. -/
theorem custodyLaw_of_covered_deposit :
    ∃ s, Runs (S := schema .small) (BankingOp.prog .small) (fun db op ↦ op.Covered db)
      (nothingCounted, 100) s ∧ (∃ d ∈ s.1.deposits, d.status = .posted) ∧
        CustodyLaw Env.small.chart nothingCounted s.1 := by
  refine exists_and_imp (fun s ↦ ∃ d ∈ s.1.deposits, d.status = .posted)
    (exists_of_runAll [openDay, .submitRecon 8 100 (.finite 1000), .approveRecon 9 100 4,
    depositOf 100 1000, .prepareDeposit 8 115 4 4, .confirmDeposit 9 115 (some 5) 5]
    (by decide +kernel)) ?_
  rintro _ hs hpd
  exact ⟨hpd, custodyLaw_of_covered rfl rfl rfl (fun l hl ↦ absurd hl not_mem_nil) hs⟩

end FuelGrid.Banking
