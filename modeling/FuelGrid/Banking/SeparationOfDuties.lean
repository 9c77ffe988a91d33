import FuelGrid.Banking.CashCustody

/-!
# Separation of duties on cash

Whoever reviews a cash reconciliation should have neither opened it nor submitted its count
(`DutiesLaw`). The table keeps who opened a reconciliation, in `created_by`, and who reviewed it;
who submitted the count is in the audit log only. The approval compares the reviewer with
`created_by`, under a comment that speaks of the person who created or submitted the reconciliation,
so a user who submits the count of a reconciliation that someone else has opened can approve it as
well.

What the law speaks of is therefore not in the database: it is stated about a run together with the
requests that were accepted in it (`Traces`).
-/

namespace FuelGrid.Banking

open Sql

/-- Requests with what they were answered, latest first. -/
abbrev Trace := List (BankingOp × Except HttpError BankingResult)

namespace Trace

variable (trace : Trace) (actor id : Uuid)

/-- The user has opened the reconciliation. -/
def Created : Prop :=
  ∃ station day payments c,
    (.createRecon actor station day payments, .ok (.recon c)) ∈ trace ∧ c.id = id

def Submitted : Prop := ∃ counted a, (.submitRecon actor id counted, .ok a) ∈ trace

end Trace

/-- A posted reconciliation was reviewed by a user who neither opened nor submitted it. -/
def DutiesLaw (trace : Trace) (db : BankingDb) : Prop :=
  ∀ c ∈ db.recons, c.status = .posted → ∃ reviewer, c.reviewedBy = some reviewer ∧
    ∀ actor, trace.Created actor c.id ∨ trace.Submitted actor c.id → reviewer ≠ actor

/-- A count is submitted by the user who opened the reconciliation. -/
def BankingOp.OwnSubmission (db : BankingDb) : BankingOp → Prop
  | .submitRecon actor id _ => ∀ c ∈ db.recons, c.id = id → c.createdBy = actor
  | _ => True

instance (db : BankingDb) : DecidablePred (BankingOp.OwnSubmission db)
  | .createRecon _ _ _ _ => .isTrue trivial
  | .submitRecon actor id _ =>
    inferInstanceAs (Decidable (∀ c ∈ db.recons, c.id = id → c.createdBy = actor))
  | .approveRecon _ _ _ => .isTrue trivial
  | .createDeposit _ => .isTrue trivial
  | .prepareDeposit _ _ _ _ => .isTrue trivial
  | .confirmDeposit _ _ _ _ => .isTrue trivial

/-! ## Steps

An approval is the only step that sets the reviewer, and it refuses who opened the reconciliation.
-/

/-- Whoever opened or submitted a reconciliation is the user in `created_by`, and whoever reviewed
it is not. -/
structure Duties (trace : Trace) (b : Cash) : Prop where
  createdBy : ∀ actor id, trace.Created actor id ∨ trace.Submitted actor id →
    ∃ c ∈ b.recons, c.id = id ∧ c.createdBy = actor
  reviewedBy : ∀ c ∈ b.recons, c.status = .posted →
    ∃ reviewer, c.reviewedBy = some reviewer ∧ c.createdBy ≠ reviewer

section Step

variable {trace : Trace} {b : Cash} {op : BankingOp} {out : Except HttpError BankingResult}

/-- Who has acted: the request just answered opened or submitted it, or an earlier one did. -/
theorem Trace.acted_cons {actor id : Uuid}
    (h : Trace.Created ((op, out) :: trace) actor id ∨
      Trace.Submitted ((op, out) :: trace) actor id) :
    (∃ station day payments c,
        (op, out) = (.createRecon actor station day payments, .ok (.recon c)) ∧ c.id = id) ∨
      (∃ counted a, (op, out) = (.submitRecon actor id counted, .ok a)) ∨
        (trace.Created actor id ∨ trace.Submitted actor id) := by
  rcases h with ⟨station, day, payments, c, hmem, hid⟩ | ⟨counted, a, hmem⟩
  · rcases mem_cons.mp hmem with heq | hmem
    · exact .inl ⟨station, day, payments, c, heq.symm, hid⟩
    · exact .inr (.inr (.inl ⟨station, day, payments, c, hmem, hid⟩))
  · rcases mem_cons.mp hmem with heq | hmem
    · exact .inr (.inl ⟨counted, a, heq.symm⟩)
    · exact .inr (.inr (.inr ⟨counted, a, hmem⟩))

/-- An update that leaves the creator of a reconciliation alone. -/
theorem Duties.setRecon (h : Duties trace b) {c c' : CashReconciliation} (hc : c ∈ b.recons) {n : ℕ}
    (hkd : b.Keyed n) (hid : c.id = c'.id) (hcre : c.createdBy = c'.createdBy)
    (hrev : c'.status = .posted →
      ∃ reviewer, c'.reviewedBy = some reviewer ∧ c'.createdBy ≠ reviewer) :
    Duties trace (b.setRecon c') where
  createdBy actor id hact := by
    obtain ⟨x, hx, hxid, hxby⟩ := h.createdBy actor id hact
    by_cases hk : x.id = c'.id
    · obtain rfl : x = c := inj_on_of_nodup_map hkd.recon_ids hx hc (hk.trans hid.symm)
      exact ⟨c', mem_map.mpr ⟨x, hx, if_pos hk⟩, hk.symm.trans hxid, hcre.symm.trans hxby⟩
    · exact ⟨x, mem_update_of_ne hx hk, hxid, hxby⟩
  reviewedBy x hx hpd := by
    rcases mem_update hx with rfl | ⟨hx, -⟩
    · exact hrev hpd
    · exact h.reviewedBy x hx hpd

theorem CashStep.duties {chart : Chart} {db : BankingDb} {b' : Cash} {n n' : ℕ}
    (h : CashStep chart db.cash n n' op out b') (hkd : db.cash.Keyed n)
    (hop : op.OwnSubmission db) (hdut : Duties trace db.cash) :
    Duties ((op, out) :: trace) b' := by
  -- the trace grows by a request that opened and submitted nothing
  have hoth : ∀ {b : Cash}, Duties trace b →
      (∀ actor station day payments c,
        (op, out) ≠ (.createRecon actor station day payments, .ok (.recon c))) →
      (∀ actor id counted a, (op, out) ≠ (.submitRecon actor id counted, .ok a)) →
      Duties ((op, out) :: trace) b := by
    refine fun hb hcre hsub ↦ ⟨fun actor id hact ↦ ?_, hb.reviewedBy⟩
    rcases Trace.acted_cons hact with ⟨_, _, _, _, heq, -⟩ | ⟨_, _, heq⟩ | hact
    · exact absurd heq (hcre _ _ _ _ _)
    · exact absurd heq (hsub _ _ _ _)
    · exact hb.createdBy actor id hact
  cases h with
  | refused => exact hoth hdut (by simp) (by simp)
  | @created actor station day payments c hid hid' hst haco =>
    refine ⟨fun actor' id hact ↦ ?_, fun x hx hpd ↦ ?_⟩
    · rcases Trace.acted_cons hact with ⟨_, _, _, x, heq, hxid⟩ | ⟨_, _, heq⟩ | hact
      · cases heq
        exact ⟨c, mem_concat_self, hxid, haco⟩
      · cases heq
      · obtain ⟨x, hx, hxid⟩ := hdut.createdBy actor' id hact
        exact ⟨x, mem_append_left _ hx, hxid⟩
    · rcases mem_snoc.mp hx with hx | rfl
      · exact hdut.reviewedBy x hx hpd
      · rw [hst] at hpd
        cases hpd
  | @submitted actor counted c countedCash variance a hc hst =>
    have hset : Duties trace
      (db.cash.setRecon { c with countedCash, variance, status := .submitted }) :=
      hdut.setRecon hc hkd (by rfl) (by rfl) nofun
    refine ⟨fun actor' id hact ↦ ?_, hset.reviewedBy⟩
    rcases Trace.acted_cons hact with ⟨_, _, _, _, heq, -⟩ | ⟨_, _, heq⟩ | hact
    · cases heq
    · -- the user who submits is the one who has opened it
      cases heq
      exact ⟨_, mem_map.mpr ⟨c, hc, if_pos rfl⟩, rfl, hop c hc rfl⟩
    · exact hset.createdBy actor' id hact
  | @approved actor now c p e lines a hc hst haco =>
    refine hoth ?_ (by simp) (by simp)
    have hset : Duties trace (db.cash.setRecon { c with
        status := .posted, reviewedBy := some actor, journalEntryId := some e.id }) :=
      hdut.setRecon hc hkd (by rfl) (by rfl) fun _ ↦ ⟨actor, rfl, haco⟩
    exact ⟨hset.createdBy, hset.reviewedBy⟩
  | deposited => exact hoth ⟨hdut.createdBy, hdut.reviewedBy⟩ (by simp) (by simp)
  | prepared => exact hoth ⟨hdut.createdBy, hdut.reviewedBy⟩ (by simp) (by simp)
  | confirmed => exact hoth ⟨hdut.createdBy, hdut.reviewedBy⟩ (by simp) (by simp)

end Step

/-! ## Runs

The law holds in every run in which each count is submitted by the user who opened the
reconciliation (`dutiesLaw_of_ownSubmissions`). -/

theorem Duties.dutiesLaw {trace : Trace} {db : BankingDb} {n : ℕ} (h : Duties trace db.cash)
    (hkd : db.cash.Keyed n) : DutiesLaw trace db := by
  intro c hc hpd
  obtain ⟨reviewer, hrev, hne⟩ := h.reviewedBy c hc hpd
  refine ⟨reviewer, hrev, fun actor hact heq ↦ ?_⟩
  obtain ⟨x, hx, hxid, hxby⟩ := h.createdBy actor c.id hact
  rw [inj_on_of_nodup_map hkd.recon_ids hx hc hxid] at hxby
  exact hne (hxby.trans heq.symm)

/-- In every run in which each count is submitted by the user who opened the reconciliation, whoever
reviews a reconciliation has neither opened nor submitted it. -/
theorem dutiesLaw_of_ownSubmissions {env : Env} {s₀ s : BankingDb × ℕ} {trace : Trace}
    (hrecons : s₀.1.recons = []) (hdeposits : s₀.1.deposits = [])
    (hdepositLines : s₀.1.depositLines = [])
    (hlines : ∀ l ∈ s₀.1.ledger.lines, l.journalEntryId < s₀.2)
    (hrun : Traces (S := schema env) (BankingOp.prog env)
      (fun db op ↦ op.OwnSubmission db) s₀ trace s) :
    DutiesLaw trace s.1 := by
  have hinit : s₀.1.cash.Keyed s₀.2 ∧ Duties [] s₀.1.cash := by
    have hcus : Custody env.chart s₀.1.ledger.lines s₀.1 s₀.2 :=
      custody_of_empty hrecons hdeposits hdepositLines hlines
    refine ⟨hcus.keyed, ?_, ?_⟩
    · rintro actor id (⟨_, _, _, _, hmem, -⟩ | ⟨_, _, hmem⟩) <;> cases hmem
    · intro c hc
      have hc : c ∈ s₀.1.recons := hc
      rw [hrecons] at hc
      cases hc
  have hs := Traces.invariant
    (I := fun trace (s : BankingDb × ℕ) ↦ s.1.cash.Keyed s.2 ∧ Duties trace s.1.cash) hrun hinit
    fun trace s op hs hop ↦ by
      have hst : Stepped env s.1 s.2 op ((op.prog env).alone s.1 [] s.2) := op.step hs.1
      exact ⟨hst.keyed hs.1 (Prog.le_alone_stamp _ _ _ _), hst.duties hs.1 hop hs.2⟩
  exact hs.2.dutiesLaw hs.1

/-- User 8 opens a reconciliation; user 9 submits the count and approves it. -/
theorem not_dutiesLaw_of_submitter_approves :
    ∃ r : Trace × BankingDb × ℕ,
      Traces (S := schema .small) (BankingOp.prog .small) (fun _ _ ↦ True)
      (nothingCounted, 100) r.1 r.2 ∧ ¬DutiesLaw r.1 r.2.1 := by
  refine exists_and_imp
    (fun r ↦ (∃ c ∈ r.2.1.recons, c.id = 100 ∧ c.status = .posted ∧ c.reviewedBy = some 9) ∧
      ∃ x ∈ r.1, x.1 = .submitRecon 9 100 (.finite 1000) ∧ ∃ a ∈ x.2.toOption, (.ok a) = x.2)
    (Traces.exists_of_traceAll (S := schema .small)
      [openDay, .submitRecon 9 100 (.finite 1000), .approveRecon 9 100 4] (by decide +kernel)) ?_
  rintro _ _ ⟨⟨c, hc, hid, hpd, hrev⟩, ⟨op, out⟩, hmem, hop, a, -, hout⟩
  intro hlaw
  obtain ⟨reviewer, hrev', hne⟩ := hlaw c hc hpd
  refine hne 9 (.inr ⟨.finite 1000, a, ?_⟩) (some.inj (hrev'.symm.trans hrev))
  rw [hid, hout, ← hop]
  exact hmem

/-- User 8 opens and submits a reconciliation, which user 9 approves. -/
theorem dutiesLaw_of_ownSubmissions_approved :
    ∃ r : Trace × BankingDb × ℕ, Traces (S := schema .small) (BankingOp.prog .small)
      (fun db op ↦ op.OwnSubmission db) (nothingCounted, 100) r.1 r.2 ∧
        (∃ c ∈ r.2.1.recons, c.status = .posted) ∧ DutiesLaw r.1 r.2.1 := by
  refine exists_and_imp (fun r ↦ ∃ c ∈ r.2.1.recons, c.status = .posted)
    (Traces.exists_of_traceAll (S := schema .small)
      [openDay, .submitRecon 8 100 (.finite 1000), .approveRecon 9 100 4] (by decide +kernel)) ?_
  rintro _ hr hpd
  exact ⟨hpd,
    dutiesLaw_of_ownSubmissions rfl rfl rfl (fun l hl ↦ absurd hl not_mem_nil) hr⟩

end FuelGrid.Banking
