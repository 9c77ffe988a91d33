import FuelGrid.Banking.Handlers

/-!
# What the handlers do to the cash

A request is refused and leaves the books of the cash (`Cash`) as they were, or it is one of six
steps (`CashStep`), each with the guards that the handler has checked.
-/

namespace FuelGrid.Banking

open Sql

/-! ## The books

The books of a station's cash are the reconciliations, the deposits with their lines, and the lines
of the journal. -/

structure Cash where
  recons : List CashReconciliation
  deposits : List BankDeposit
  depositLines : List DepositLine
  lines : List JournalLine

def BankingDb.cash (db : BankingDb) : Cash where
  recons := db.recons
  deposits := db.deposits
  depositLines := db.depositLines
  lines := db.ledger.lines

/-- Rows have ids of their own, drawn before `n`, and a reconciliation has at most one deposit
line. -/
structure Cash.Keyed (b : Cash) (n : ℕ) : Prop where
  recon_ids : (b.recons.map (·.id)).Nodup
  recons_lt : ∀ c ∈ b.recons, c.id < n
  deposit_ids : (b.deposits.map (·.id)).Nodup
  deposits_lt : ∀ d ∈ b.deposits, d.id < n
  line_recons : (b.depositLines.map (·.reconId)).Nodup
  line_deposits : ∀ l ∈ b.depositLines, l.depositId < n
  lines_lt : ∀ l ∈ b.lines, l.journalEntryId < n

def Cash.setRecon (b : Cash) (c : CashReconciliation) : Cash :=
  { b with recons := b.recons.map fun x ↦ if x.id = c.id then c else x }

def Cash.setDeposit (b : Cash) (d : BankDeposit) : Cash :=
  { b with deposits := b.deposits.map fun x ↦ if x.id = d.id then d else x }

def Cash.post (b : Cash) (lines : List JournalLine) : Cash := { b with lines := b.lines ++ lines }

structure Attached (deposit : Uuid) (ln : LineRequest) (l : DepositLine) : Prop where
  deposit : l.depositId = deposit
  recon : l.reconId = ln.reconId
  amount : ln.amount.store 14 2 = some l.amount

/-- What a request does to the books and what it is answered, when ids are drawn from `n` to
`n'`. -/
inductive CashStep (chart : Chart) (b : Cash) (n n' : ℕ) :
    BankingOp → Except HttpError BankingResult → Cash → Prop
  | refused (op : BankingOp) (e : HttpError) : CashStep chart b n n' op (.error e) b
  | created {actor station day : Uuid} {payments : List Tender} {c : CashReconciliation}
      (hid : n ≤ c.id) (hid' : c.id < n') (hstatus : c.status = .draft)
      (hactor : c.createdBy = actor) :
      CashStep chart b n n' (.createRecon actor station (some day) payments) (.ok (.recon c))
        { b with recons := b.recons ++ [c] }
  | submitted {actor : Uuid} {counted : Numeric} {c : CashReconciliation}
    {countedCash variance : Money}
      {a : BankingResult} (hc : c ∈ b.recons) (hstatus : c.status = .draft ∨ c.status = .rejected) :
      CashStep chart b n n' (.submitRecon actor c.id counted) (.ok a)
        (b.setRecon { c with countedCash, variance, status := .submitted })
  | approved {actor : Uuid} {now : ℤ} {c : CashReconciliation} {p : CashPosting}
      {e : JournalEntry} {lines : List JournalLine} {a : BankingResult} (hc : c ∈ b.recons)
      (hstatus : c.status = .submitted) (hactor : c.createdBy ≠ actor)
      (hstation : p.stationId = c.stationId) (hcounted : p.counted = c.countedCash)
      (hposted : Posts chart (reconEntry actor c.id p) n n' e lines) :
      CashStep chart b n n' (.approveRecon actor c.id now) (.ok a)
        ((b.setRecon { c with
          status := .posted
          reviewedBy := some actor
          journalEntryId := some e.id }).post lines)
  | deposited {req : DepositRequest} {d : BankDeposit} {ls : List DepositLine} (hid : n ≤ d.id)
      (hid' : d.id < n') (hstatus : d.status = .draft) (hstation : req.stationId = some d.stationId)
      (hlines : Forall₂ (Attached d.id) req.lines ls)
      (hrecons : ((b.depositLines ++ ls).map (·.reconId)).Nodup) :
      CashStep chart b n n' (.createDeposit req) (.ok (.deposit d.id))
        { b with deposits := b.deposits ++ [d], depositLines := b.depositLines ++ ls }
  | prepared {actor : Uuid} {today now date : ℤ} {d : BankDeposit} {e : JournalEntry}
      {lines : List JournalLine} (hd : d ∈ b.deposits) (hstatus : d.status = .draft)
      (hposted : Posts chart (depositEntry actor d.id d.stationId date "bank_clearing"
        "cash_on_hand" (depositTotal b.depositLines d.id)) n n' e lines) :
      CashStep chart b n n' (.prepareDeposit actor d.id today now) (.ok (.deposit d.id))
        ((b.setDeposit { d with
          amount := depositTotal b.depositLines d.id
          status := .prepared
          preparedEntryId := some e.id }).post lines)
  | confirmed {actor : Uuid} {actual now : ℤ} {d : BankDeposit} {e : JournalEntry}
      {lines : List JournalLine} (hd : d ∈ b.deposits)
      (hstatus : d.status = .prepared ∨ d.status = .inTransit ∨ d.status = .confirmed)
      (hposted : Posts chart (depositEntry actor d.id d.stationId actual "bank"
        "bank_clearing" d.amount) n n' e lines) :
      CashStep chart b n n' (.confirmDeposit actor d.id (some actual) now) (.ok (.deposit d.id))
        ((b.setDeposit { d with
          status := .posted
          actualBankDate := some actual
          confirmedEntryId := some e.id }).post lines)

variable {c c' : CashReconciliation} {d d' : BankDeposit} {lines : List JournalLine}
  {input : PostEntryInput} {now : ℤ} {p : CashPosting}

namespace Cash.Keyed

variable {b : Cash} {n m : ℕ} (h : b.Keyed n)

include h

theorem mono (hn : n ≤ m) : b.Keyed m :=
  { h with
    recons_lt := fun c hc ↦ (h.recons_lt c hc).trans_le hn
    deposits_lt := fun d hd ↦ (h.deposits_lt d hd).trans_le hn
    line_deposits := fun l hl ↦ (h.line_deposits l hl).trans_le hn
    lines_lt := fun l hl ↦ (h.lines_lt l hl).trans_le hn }

theorem post (hlns : ∀ l ∈ lines, l.journalEntryId < n) : (b.post lines).Keyed n :=
  { h with lines_lt := fun l hl ↦ (mem_append.mp hl).elim (h.lines_lt l) (hlns l) }

theorem setRecon (hc : c ∈ b.recons) (hid : c'.id = c.id) : (b.setRecon c').Keyed n := by
  refine { h with recon_ids := nodup_key_update h.recon_ids c', recons_lt := fun x hx ↦ ?_ }
  rcases mem_update hx with rfl | ⟨hx, -⟩
  · exact hid ▸ h.recons_lt c hc
  · exact h.recons_lt x hx

theorem setDeposit (hd : d ∈ b.deposits) (hid : d'.id = d.id) : (b.setDeposit d').Keyed n := by
  refine { h with deposit_ids := nodup_key_update h.deposit_ids d', deposits_lt := fun x hx ↦ ?_ }
  rcases mem_update hx with rfl | ⟨hx, -⟩
  · exact hid ▸ h.deposits_lt d hd
  · exact h.deposits_lt x hx

theorem recon (hid : n ≤ c.id) (hid' : c.id < m) :
    ({ b with recons := b.recons ++ [c] } : Cash).Keyed m := by
  refine { h.mono (hid.trans hid'.le) with recon_ids := ?_, recons_lt := fun x hx ↦ ?_ }
  · exact nodup_key_snoc h.recon_ids fun y hy ↦ ((h.recons_lt y hy).trans_le hid).ne
  · rcases mem_snoc.mp hx with hx | rfl
    · exact (h.recons_lt x hx).trans_le (hid.trans hid'.le)
    · exact hid'

theorem deposit (hid : n ≤ d.id) (hid' : d.id < m) :
    ({ b with deposits := b.deposits ++ [d] } : Cash).Keyed m := by
  refine { h.mono (hid.trans hid'.le) with deposit_ids := ?_, deposits_lt := fun x hx ↦ ?_ }
  · exact nodup_key_snoc h.deposit_ids fun y hy ↦ ((h.deposits_lt y hy).trans_le hid).ne
  · rcases mem_snoc.mp hx with hx | rfl
    · exact (h.deposits_lt x hx).trans_le (hid.trans hid'.le)
    · exact hid'

end Cash.Keyed

variable {deposit : Uuid} {lns : List LineRequest}

theorem Attached.deposit_of_forall₂ {ls : List DepositLine}
    (h : Forall₂ (Attached deposit) lns ls) : ∀ l ∈ ls, l.depositId = deposit := by
  induction h with
  | nil => exact nofun
  | cons hl _ ih => exact forall_mem_cons.mpr ⟨hl.deposit, ih⟩

theorem CashStep.keyed {chart : Chart} {b b' : Cash} {n n' : ℕ} {op : BankingOp}
    {out : Except HttpError BankingResult} (hb : b.Keyed n) (hn : n ≤ n')
    (h : CashStep chart b n n' op out b') : b'.Keyed n' := by
  cases h with
  | refused => exact hb.mono hn
  | created hid hid' => exact hb.recon hid hid'
  | submitted hc => exact (hb.setRecon hc (by rfl)).mono hn
  | approved hc _ _ _ _ hpd => exact ((hb.setRecon hc (by rfl)).mono hn).post hpd.lines_lt
  | deposited hid hid' _ _ hlns hrec =>
    refine { hb.deposit hid hid' with line_recons := hrec, line_deposits := fun l hl ↦ ?_ }
    rcases mem_append.mp hl with hl | hl
    · exact (hb.line_deposits l hl).trans_le hn
    · rw [Attached.deposit_of_forall₂ hlns l hl]
      exact hid'
  | prepared hd _ hpd => exact ((hb.setDeposit hd (by rfl)).mono hn).post hpd.lines_lt
  | confirmed hd _ hpd => exact ((hb.setDeposit hd (by rfl)).mono hn).post hpd.lines_lt

/-! ## The statements on the books -/

section Statements

variable {env : Env} {db : BankingDb} {n : ℕ} {id : Uuid}

private theorem insertRecon_eq_ok {station day createdBy : Uuid} {payments : List Tender}
    (h : insertRecon env db n station day createdBy payments = .ok c) :
    c.id = n ∧ c.status = .draft ∧ c.createdBy = createdBy := by
  unfold insertRecon at h
  split at h
  · cases h
  · split at h
    · cases h
    · split at h
      · obtain rfl := ok.inj h
        exact ⟨rfl, rfl, rfl⟩
      · cases h

private theorem submitRecon_eq_some {counted : Numeric}
    (h : submitRecon db id counted = .ok (some c')) :
    ∃ c ∈ db.recons, c.id = id ∧ (c.status = .draft ∨ c.status = .rejected) ∧
      ∃ countedCash variance, c' = { c with countedCash, variance, status := .submitted } := by
  unfold submitRecon at h
  split at h
  · cases h
  next c hfi =>
    have hc : c.id = id ∧ (c.status = .draft ∨ c.status = .rejected) := by
      simpa using find?_some hfi
    split at h
    · obtain rfl := some.inj (ok.inj h)
      exact ⟨c, mem_of_find?_eq_some hfi, hc.1, hc.2, _, _, rfl⟩
    · cases h

private theorem postingFor_eq_some (h : postingFor env db id = some p) :
    ∃ c ∈ db.recons, c.id = id ∧ p.status = c.status ∧ p.stationId = c.stationId ∧
      p.counted = c.countedCash := by
  obtain ⟨c, hc, hp⟩ := bind_eq_some_iff.mp h
  obtain ⟨d, -, rfl⟩ := map_eq_some_iff.mp hp
  have hfd : c ∈ db.recons ∧ c.id = id := key_of_find? hc
  obtain ⟨hmem, hid⟩ := hfd
  exact ⟨c, hmem, hid, rfl, rfl, rfl⟩

private theorem insertDeposit_eq_ok {input : DepositInput} (h : insertDeposit env n input = .ok d) :
    d.id = n ∧ d.status = .draft ∧ d.stationId = input.stationId := by
  unfold insertDeposit at h
  split at h
  · obtain rfl := ok.inj h
    exact ⟨rfl, rfl, rfl⟩
  · cases h

private theorem insertDepositLine_eq_ok {ln : LineRequest} {l : DepositLine}
    (h : insertDepositLine db deposit ln.reconId ln.amount = .ok l) :
    Attached deposit ln l ∧ ∀ x ∈ db.depositLines, x.reconId ≠ l.reconId := by
  unfold insertDepositLine at h
  split at h
  · cases h
  next amount hamt =>
    split at h
    · split at h
      · cases h
      next hun =>
        split at h
        · obtain rfl := ok.inj h
          exact ⟨⟨rfl, rfl, hamt⟩, fun x hx heq ↦ hun ⟨x, hx, heq⟩⟩
        · cases h
    · cases h

private theorem prepareDeposit_eq_some (h : prepareDeposit db id = .ok (some d')) :
    ∃ d ∈ db.deposits, d.id = id ∧ d.status = .draft ∧
      d' = { d with amount := depositTotal db.depositLines id, status := .prepared } := by
  unfold prepareDeposit at h
  split at h
  · cases h
  next d hfi =>
    have hd : d.id = id ∧ d.status = .draft := by simpa using find?_some hfi
    split at h
    · cases h
    next amount hamt =>
      obtain rfl := some.inj (ok.inj h)
      rw [store_ofUnits hamt]
      exact ⟨d, mem_of_find?_eq_some hfi, hd.1, hd.2, rfl⟩

private theorem confirmDeposit_eq_some {actual : ℤ} (h : confirmDeposit db id actual = some d') :
    ∃ d ∈ db.deposits, d.id = id ∧
      (d.status = .prepared ∨ d.status = .inTransit ∨ d.status = .confirmed) ∧
      d' = { d with status := .posted, actualBankDate := some actual } := by
  obtain ⟨d, hfi, rfl⟩ := map_eq_some_iff.mp h
  have hd : d.id = id ∧ (d.status = .prepared ∨ d.status = .inTransit ∨ d.status = .confirmed) := by
    simpa using find?_some hfi
  exact ⟨d, mem_of_find?_eq_some hfi, hd.1, hd.2, rfl⟩

end Statements

/-! ## The handlers on the books

`BankingOp.step` puts them together; what is proved about runs is a case analysis of it. -/

section Rules

variable {env : Env} {db view : BankingDb} {Q : BankingResult → BankingDb → ℕ → Prop} {m : ℕ}

/-- A call of the journal that is answered adds the lines of an entry. -/
theorem yields_journal {k : PostedEntry → Txn env} (hkeyed : view.cash.Keyed m)
    (hk : ∀ e lines m' view', Posts env.chart input m m' e lines →
      view'.cash = view.cash.post lines →
      (k ⟨e, lines, Accounting.totalDebit lines⟩).Yields db Q view' m') :
    (post input now k).Yields db Q view m :=
  yields_post hkeyed.lines_lt fun e lines m' _ hpst hlns ↦
    hk e lines m' _ hpst (congrArg (fun lines ↦ { view.cash with lines }) hlns)

theorem yields_addDepositLines (hrec : (view.depositLines.map (·.reconId)).Nodup)
    (hQ : ∀ ls m' view', m ≤ m' → Forall₂ (Attached deposit) lns ls →
      ((view.depositLines ++ ls).map (·.reconId)).Nodup →
      view'.cash = { view.cash with depositLines := view.depositLines ++ ls } →
      Q (.deposit deposit) view' (m' + 1)) :
    (addDepositLines env deposit lns).Yields db Q view m := by
  induction lns generalizing view m with
  | nil =>
    have := hQ [] m view le_rfl .nil (by rwa [append_nil]) (by rw [append_nil]; rfl)
    exact yields_commit this
  | cons ln lns ih =>
    unfold addDepositLines
    split
    · trivial
    rw [yields_lock]
    refine yields_step fun ws r hout ↦ ?_
    obtain ⟨e, -, rfl, rfl⟩ | ⟨l, hins, rfl, rfl⟩ := logged_eq hout
    · cases e <;> trivial
    obtain ⟨hl, hfr⟩ := insertDepositLine_eq_ok hins
    have hnd : ((view.depositLines ++ [l]).map (·.reconId)).Nodup := by
      exact nodup_key_snoc hrec hfr
    refine ih hnd fun ls m' view' hm hls hnd' hcash ↦ ?_
    refine hQ (l :: ls) m' view' ((le_succ m).trans hm) (.cons hl hls) ?_ ?_
    · rw [← singleton_append, ← append_assoc]
      exact hnd'
    · exact hcash.trans (congrArg (fun ls ↦ ({ view.cash with depositLines := ls } : Cash))
        (append_assoc view.depositLines [l] ls))

end Rules

section Step

variable {env : Env} {db : BankingDb} {n m : ℕ} (hkeyed : db.cash.Keyed n)

/-- The outcome of a request, as a step on the books. -/
def Stepped (env : Env) (db : BankingDb) (n : ℕ) (op : BankingOp)
    (out : Except HttpError BankingResult × BankingDb × ℕ) : Prop :=
  CashStep env.chart db.cash n out.2.2 op out.1 out.2.1.cash

/-- What an accepted request yields is a step on the books. -/
def Steps (env : Env) (db : BankingDb) (n : ℕ) (op : BankingOp) (p : Txn env) (m : ℕ) : Prop :=
  p.Yields db (fun a (db' : BankingDb) n' ↦ CashStep env.chart db.cash n n' op (.ok a) db'.cash)
    db m

theorem steps_handleCreateCashReconciliation (actor station : Uuid) (day : Option Uuid)
    (payments : List Tender) : Steps env db n (.createRecon actor station day payments)
      (handleCreateCashReconciliation env actor station day payments) n := by
  rcases day with _ | day
  · trivial
  unfold handleCreateCashReconciliation
  rw [Steps, yields_lock]
  refine yields_step fun ws r hout ↦ ?_
  obtain ⟨e, -, rfl, rfl⟩ | ⟨c, hins, rfl, rfl⟩ := logged_eq hout
  · cases e <;> trivial
  obtain ⟨hid, hst, hact⟩ := insertRecon_eq_ok hins
  have hlt : c.id < n + 1 + 1 := hid.trans_lt (Nat.lt_add_of_pos_right (Nat.succ_pos 1))
  exact yields_commit (.created hid.ge hlt hst hact)

theorem steps_handleSubmitCashReconciliation (actor id : Uuid) (counted : Numeric) :
    Steps env db n (.submitRecon actor id counted)
      (handleSubmitCashReconciliation env id counted) n := by
  unfold handleSubmitCashReconciliation
  split
  · trivial
  rw [Steps, yields_lock]
  refine yields_step fun ws r hout ↦ ?_
  obtain ⟨e, -, rfl, rfl⟩ | ⟨-, rfl, rfl⟩ | ⟨c', hsub, rfl, rfl⟩ := loggedRow_eq hout
  · trivial
  · trivial
  obtain ⟨c, hc, rfl, hst, countedCash, variance, rfl⟩ := submitRecon_eq_some hsub
  exact yields_commit (.submitted hc hst)

include hkeyed

/-- The approval of a reconciliation that is submitted and was created by someone else. -/
theorem steps_approveRecon {actor : Uuid} (hm : n ≤ m) (hc : c ∈ db.recons)
    (hst : c.status = .submitted) (hact : c.createdBy ≠ actor)
    (hstn : p.stationId = c.stationId) (hctd : p.counted = c.countedCash) :
    Steps env db n (.approveRecon actor c.id now) (approveRecon env actor c.id now p) m := by
  unfold approveRecon
  split
  · trivial
  refine yields_journal (hkeyed.mono hm) fun e lines m' view hpst hcash ↦ ?_
  rw [yields_lock]
  refine yields_step fun ws r hout ↦ ?_
  obtain ⟨-, rfl, rfl⟩ | ⟨c', hmark, rfl, rfl⟩ := loggedUpdate_eq hout
  · trivial
  obtain ⟨x, hfi, rfl⟩ := map_eq_some_iff.mp hmark
  have hx : x.id = c.id ∧ x.status = .submitted := by simpa using find?_some hfi
  have hmem : x ∈ view.cash.recons := mem_of_find?_eq_some hfi
  rw [hcash] at hmem
  obtain rfl : x = c := inj_on_of_nodup_map hkeyed.recon_ids hmem hc hx.1
  refine yields_commit ?_
  change CashStep env.chart db.cash n (m' + 1 + 1) _ _ (view.cash.setRecon _)
  rw [hcash]
  exact .approved hc hst hact hstn hctd (hpst.mono hm (by omega))

theorem steps_handleApproveCashReconciliation (actor id : Uuid) (now : ℤ) :
    Steps env db n (.approveRecon actor id now)
      (handleApproveCashReconciliation env actor id now) n := by
  refine yields_reply rfl fun r hr ↦ ?_
  have hr : postingFor env db id = r := hr
  rcases r with _ | p
  · trivial
  obtain ⟨c, hc, rfl, hst, hstn, hctd⟩ := postingFor_eq_some hr
  dsimp only
  split
  · trivial
  next hsub =>
    rw [yields_lock]
    refine yields_reply rfl fun r hr ↦ ?_
    have hr : (db.recons.find? (·.id = c.id)).map (·.createdBy) = r := hr
    have hfi : db.recons.find? (·.id = c.id) = some c := find?_key_of_mem hkeyed.recon_ids hc rfl
    rw [hfi] at hr
    subst hr
    dsimp only [map_some]
    split
    · trivial
    next hact =>
      exact steps_approveRecon hkeyed (by omega) hc (hst.symm.trans (not_not.mp hsub))
        hact hstn hctd

theorem steps_handleCreateBankDeposit (req : DepositRequest) :
    Steps env db n (.createDeposit req) (handleCreateBankDeposit env req) n := by
  unfold handleCreateBankDeposit
  split
  next station bankAccount hstn _ =>
    split
    · trivial
    split
    · trivial
    refine yields_step fun ws r hout ↦ ?_
    obtain ⟨e, -, rfl, rfl⟩ | ⟨d, hins, rfl, rfl⟩ := logged_eq hout
    · cases e <;> trivial
    obtain ⟨hid, hst, hstn'⟩ := insertDeposit_eq_ok hins
    refine yields_addDepositLines hkeyed.line_recons fun ls m' view hm hls hnd hcash ↦ ?_
    have hlt : d.id < m' + 1 := hid.trans_lt (Nat.lt_succ_of_le ((le_succ n).trans hm))
    rw [hcash]
    exact .deposited hid.ge hlt hst (hstn.trans (congrArg some hstn'.symm)) hls hnd
  · trivial

/-- What follows the update of a deposit: the entry and the link to it, written to the row that the
transaction has just updated. -/
theorem steps_postDeposit {op : BankingOp} (q : Uuid → Query)
    (link : Uuid → BankDeposit → BankDeposit) (hm : n ≤ m) (hd : d ∈ db.deposits)
    (hid : d'.id = d.id) (hlink : ∀ e, (link e d').id = d'.id)
    (hq : ∀ e view m, (exec env (q e) db view m).1
      = (loggedUpdate .setDeposit ((view.deposits.find? (·.id = d.id)).map (link e))).1)
    (hst : ∀ e lines m', Posts env.chart input n m' e lines →
      CashStep env.chart db.cash n m' op (.ok (.deposit d.id))
        ((db.cash.setDeposit (link e.id d')).post lines)) :
    (post (S := schema env) input now fun e ↦ .query (q e.entry.id) fun _ ↦
      commit (.deposit d.id)).Yields
      db (fun a (db' : BankingDb) n' ↦ CashStep env.chart db.cash n n' op (.ok a) db'.cash)
      (db.apply (.setDeposit d')) m := by
  have hkd' : (db.apply (.setDeposit d')).cash.Keyed m := (hkeyed.setDeposit hd hid).mono hm
  refine yields_journal hkd' fun e lines m' view hpst hcash ↦ ?_
  have hdeps : view.deposits = db.deposits.map fun x ↦ if x.id = d'.id then d' else x :=
    congrArg Cash.deposits hcash
  have hfi : view.deposits.find? (·.id = d.id) = some d' := by
    rw [hdeps, ← hid]
    exact find?_update_self (find?_key_of_mem hkeyed.deposit_ids hd hid.symm)
  refine yields_step fun ws r hout ↦ yields_commit ?_
  have hws := hq e.id view m'
  rw [hfi, show exec env (q e.id) db view m' = (ws, r) from hout] at hws
  obtain rfl : ws = [.setDeposit (link e.id d')] := hws
  have hfin : view.cash.setDeposit (link e.id d')
      = (db.cash.setDeposit (link e.id d')).post lines := by
    rw [hcash]
    exact congrArg (fun deposits ↦ (({ db.cash with deposits } : Cash)).post lines)
      (update_update (hlink e.id))
  change CashStep env.chart db.cash n (m' + 1 + 1) op _ (view.cash.setDeposit _)
  rw [hfin]
  exact hst e lines _ (hpst.mono hm (by omega))

theorem steps_handlePrepareBankDeposit (actor id : Uuid) (today now : ℤ) :
    Steps env db n (.prepareDeposit actor id today now)
      (handlePrepareBankDeposit env actor id today now) n := by
  refine yields_reply rfl fun r hr ↦ ?_
  have hr : db.deposits.find? (·.id = id) = r := hr
  rcases r with _ | dep
  · trivial
  have hfd : dep ∈ db.deposits ∧ dep.id = id := key_of_find? hr
  obtain ⟨hdep, hdei⟩ := hfd
  dsimp only
  rw [yields_lock]
  refine yields_step fun ws r hout ↦ ?_
  obtain ⟨e, -, rfl, rfl⟩ | ⟨-, rfl, rfl⟩ | ⟨d', hprep, rfl, rfl⟩ := loggedRow_eq hout
  · trivial
  · trivial
  obtain ⟨d, hd, rfl, hst, hd'⟩ := prepareDeposit_eq_some hprep
  -- the row read before the transaction is the one that is prepared
  obtain rfl : dep = d := inj_on_of_nodup_map hkeyed.deposit_ids hdep hd hdei
  dsimp only
  split
  · trivial
  have hid : d'.id = dep.id := by rw [hd']
  refine steps_postDeposit hkeyed (.setPreparedEntry dep.id)
    (fun e d ↦ { d with preparedEntryId := some e }) (by omega) hd hid (fun _ ↦ rfl)
    (fun _ _ _ ↦ rfl) fun e lines m' hpst ↦ ?_
  rw [hd'] at hpst ⊢
  exact .prepared hd hst hpst

theorem steps_handleConfirmBankDeposit (actor id : Uuid) (actualBankDate : Option ℤ) (now : ℤ) :
    Steps env db n (.confirmDeposit actor id actualBankDate now)
      (handleConfirmBankDeposit env actor id actualBankDate now) n := by
  rcases actualBankDate with _ | actual
  · trivial
  refine yields_reply rfl fun r hr ↦ ?_
  have hr : db.deposits.find? (·.id = id) = r := hr
  rcases r with _ | dep
  · trivial
  have hfd : dep ∈ db.deposits ∧ dep.id = id := key_of_find? hr
  obtain ⟨hdep, hdei⟩ := hfd
  dsimp only
  rw [yields_lock]
  refine yields_step fun ws r hout ↦ ?_
  obtain ⟨-, rfl, rfl⟩ | ⟨d', hconf, rfl, rfl⟩ := loggedUpdate_eq hout
  · trivial
  obtain ⟨d, hd, rfl, hst, hd'⟩ := confirmDeposit_eq_some hconf
  obtain rfl : dep = d := inj_on_of_nodup_map hkeyed.deposit_ids hdep hd hdei
  have hid : d'.id = dep.id := by rw [hd']
  refine steps_postDeposit hkeyed (.setConfirmedEntry dep.id)
    (fun e d ↦ { d with confirmedEntryId := some e }) (by omega) hd hid (fun _ ↦ rfl)
    (fun _ _ _ ↦ rfl) fun e lines m' hpst ↦ ?_
  rw [hd'] at hpst ⊢
  exact .confirmed hd hst hpst

theorem BankingOp.step (op : BankingOp) : Stepped env db n op ((op.prog env).alone db [] n) := by
  refine alone_of_yields (S := schema env) (R := Stepped env db n op) (fun e _ _ ↦ .refused op e)
    (Prog.Yields.imp (fun _ _ _ h _ ↦ h) (?_ : Steps env db n op (op.prog env) n))
  cases op with
  | createRecon actor station day payments =>
    exact steps_handleCreateCashReconciliation actor station day payments
  | submitRecon actor id counted => exact steps_handleSubmitCashReconciliation actor id counted
  | approveRecon actor id now => exact steps_handleApproveCashReconciliation hkeyed actor id now
  | createDeposit req => exact steps_handleCreateBankDeposit hkeyed req
  | prepareDeposit actor id today now =>
    exact steps_handlePrepareBankDeposit hkeyed actor id today now
  | confirmDeposit actor id actualBankDate now =>
    exact steps_handleConfirmBankDeposit hkeyed actor id actualBankDate now

end Step

end FuelGrid.Banking
