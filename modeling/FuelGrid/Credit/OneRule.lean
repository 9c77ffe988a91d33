import FuelGrid.Credit.LimitSafety

/-!
# One credit limit, checked in two places

`PostCharge` and `RequestAuthorization` each decide whether an amount fits into the credit of a
customer, and each in its own way. A charge counts every approved hold, an authorization only the
holds that have not expired. A charge is refused to a customer that was deleted, an authorization to
one that was closed. A charge also stores the new balance, which has to fit its column, and a `NaN`
among the sums is above every limit for a charge and leaves room for everything to an authorization.

`charged_iff` and `authorized_iff` say what each of them asks for, and `OneRule` which states of the
customer keep the two together. An expired hold that no request has released yet can part them
(`not_oneRule_of_expired`).
-/

namespace FuelGrid.Credit

open Sql

variable {env : Env} {db : CreditDb} {customer : Uuid} {amount : Numeric} {now clock : ℤ} {n : ℕ}
  {fits : Customer → Prop} {c : Customer} {input : AuthRequest} {l : List Authorization}
  {log : List Write}

/-- `PostCharge` accepts the amount as a charge. -/
def Charged (env : Env) (db : CreditDb) (n : ℕ) (customer : Uuid) (amount : Numeric) : Prop :=
  ∃ e, ((postCharge env customer amount false).alone db [] n).1 = .ok (.entry e)

/-- `RequestAuthorization` approves an authorization of the amount. -/
def Authorized (env : Env) (db : CreditDb) (n : ℕ) (input : AuthRequest) (now clock : ℤ) : Prop :=
  ∃ a, ((requestAuthorization env input now clock false).alone db [] n).1 = .ok (.authorization a)

/-- The amount fits above the balance and all approved holds, and the new balance into its
column. -/
def FitsAllHolds (db : CreditDb) (customer : Uuid) (limit : Money) (amount : Numeric) : Prop :=
  .ofUnits 2 (db.arBalance customer) + .ofUnits 2 (db.held customer fun _ ↦ true) + amount
      ≤ ofUnits 2 limit ∧
    ((.ofUnits 2 (db.arBalance customer) + amount).store 14 2).isSome
  deriving Decidable

/-- The amount fits into what the balance and the live holds leave of the limit. -/
def FitsLiveHolds (db : CreditDb) (customer : Uuid) (limit : Money) (amount : Numeric) (now : ℤ) :
    Prop :=
  amount ≤ .ofUnits 2 (limit - db.arBalance customer - db.held customer (live now))
  deriving Decidable

/-- The customer exists and is not on hold, and the amount can be stored and passes `fits`. -/
def Admits (db : CreditDb) (customer : Uuid) (amount : Numeric) (fits : Customer → Prop) : Prop :=
  ∃ c ∈ db.customer customer, c.onHold = false ∧ (amount.store 14 2).isSome ∧ fits c

def AdmitsCharge (db : CreditDb) (customer : Uuid) (amount : Numeric) : Prop :=
  Admits db customer amount fun c ↦
    c.status ≠ .deleted ∧ FitsAllHolds db customer c.creditLimit amount

/-- What an authorization needs. -/
def AdmitsHold (db : CreditDb) (customer : Uuid) (amount : Numeric) (now : ℤ) : Prop :=
  Admits db customer amount fun c ↦
    c.status ≠ .closed ∧ FitsLiveHolds db customer c.creditLimit amount now

theorem admits_iff (hrow : db.customer customer = some c) : Admits db customer amount fits ↔
    c.onHold = false ∧ (amount.store 14 2).isSome ∧ fits c := by
  simp [Admits, hrow]

private theorem not_admits (hrow : db.customer customer = none) :
    ¬Admits db customer amount fits := by
  simp [Admits, hrow]

private theorem exists_insertCharge {input : ChargeInput} (hlim : input.allowOverLimit = false) :
    (∃ e, insertCharge n input = .ok (some e)) ↔ (input.amount.store 14 2).isSome ∧
      (.ofUnits 2 input.arBalance + .ofUnits 2 input.authHeld + input.amount
        ≤ ofUnits 2 input.creditLimit) ∧
      ((.ofUnits 2 input.arBalance + input.amount).store 14 2).isSome := by
  constructor
  · rintro ⟨e, he⟩
    obtain ⟨hle, -, -, hamt, hbal⟩ := insertCharge_eq_some he
    rw [hlim] at hle
    exact ⟨hamt ▸ rfl, hle.resolve_left nofun, hbal ▸ rfl⟩
  · rintro ⟨hamt, hle, hbal⟩
    obtain ⟨a, ha⟩ := isSome_iff_exists.mp hamt
    obtain ⟨b, hb⟩ := isSome_iff_exists.mp hbal
    exact ⟨_, by rw [insertCharge, if_pos (.inr hle), ha, hb]⟩

theorem charged_iff : Charged env db n customer amount ↔ AdmitsCharge db customer amount := by
  let Q : Except CreditError CreditResult × CreditDb × ℕ → Prop := fun out ↦
    (∃ e, out.1 = .ok (.entry e)) ↔ AdmitsCharge db customer amount
  have href : ∀ {e db' n'}, ¬AdmitsCharge db customer amount → Q (.error e, db', n') :=
    fun h ↦ iff_of_false (nofun) h
  change Q _
  refine Prog.alone_reply rfl fun sums hsums ↦ ?_
  have hsums : (db.present customer).map (fun _ ↦ (db.arBalance customer,
    db.held customer fun _ ↦ true)) = sums := hsums
  subst hsums
  rcases hrow : db.customer customer with _ | c
  · have hno : db.present customer = none := by rw [CreditDb.present, hrow]; rfl
    rw [hno]
    exact href (not_admits hrow)
  by_cases hdel : c.status = .deleted
  · have hno : db.present customer = none := by simp [CreditDb.present, hrow, hdel]
    rw [hno]
    exact href fun h ↦ ((admits_iff hrow).mp h).2.2.1 hdel
  have hsm : db.present customer = some c := by simp [CreditDb.present, hrow, hdel]
  rw [hsm, map_some]
  dsimp only
  rw [Prog.alone_lock]
  refine Prog.alone_reply rfl fun row hrow' ↦ ?_
  obtain rfl : some c = row := hsm.symm.trans hrow'
  dsimp only
  split
  next hhold =>
    refine href fun h ↦ ?_
    rw [((admits_iff hrow).mp h).1] at hhold
    cases hhold
  next hfr =>
    have hiff : AdmitsCharge db customer amount ↔ ∃ e, insertCharge (n + 1 + 1) ⟨customer, amount,
        false, db.arBalance customer, db.held customer fun _ ↦ true, c.creditLimit⟩ =
          .ok (some e) := by
      rw [AdmitsCharge, admits_iff hrow, exists_insertCharge rfl,
        and_iff_right (by simpa using hfr),
        and_iff_right hdel]
      rfl
    refine Prog.alone_step fun ws r hout ↦ ?_
    change (∃ e, _) ↔ AdmitsCharge db customer amount
    rw [hiff]
    rcases loggedRow_eq hout with ⟨e, he, rfl, rfl⟩ | ⟨he, rfl, rfl⟩ | ⟨e, he, rfl, rfl⟩ <;> rw [he]
    · exact iff_of_false (nofun) nofun
    · exact iff_of_false (nofun) nofun
    · exact iff_of_true ⟨e, rfl⟩ ⟨e, rfl⟩

private theorem alone_lockAll {ids : List Uuid} {next : Txn env} :
    (lockAll env ids next).alone db log n = next.alone db log n := by
  induction ids with
  | nil => rfl
  | cons id ids ih => exact ih

/-- The updates that release holds. -/
def releases (l : List Authorization) : List Write :=
  l.map fun a ↦ .setStatus a.id .expired a.consumedBy

private theorem settled_releases (l : List Authorization) :
    settled (releases l) = l.map (·.id) := by
  induction l with
  | nil => rfl
  | cons a l ih => exact congrArg (a.id :: ·) ih

private theorem replay_releases (env : Env) (l : List Authorization) (db : CreditDb) :
    (replay (S := schema env) db (releases l)).customer = db.customer ∧
      (replay (S := schema env) db (releases l)).entries = db.entries ∧
      (replay (S := schema env) db (releases l)).limits = db.limits := by
  induction l generalizing db with
  | nil => exact ⟨rfl, rfl, rfl⟩
  | cons a l ih => exact ih _

section Releases

variable (env) (hkeys : (db.authorizations.map (·.id)).Nodup)
  (hl : ∀ a ∈ l, a ∈ db.authorizations ∧ a.Stale now)

include hkeys hl

/-- Releasing expired holds changes nothing for those that are live. -/
theorem held_releases :
    (replay (S := schema env) db (releases l)).held customer (live now)
      = db.held customer (live now) := by
  have hlog : ∀ w ∈ releases l, ∃ id st cb, w = .setStatus id st cb ∧
      ¬st = AuthStatus.approved := by
    intro w hw
    obtain ⟨a, -, rfl⟩ := mem_map.mp hw
    exact ⟨_, _, _, rfl, nofun⟩
  have hfix : Fixed (live now) := fixed_keyed fun _ t ↦ t.all (now < ·)
  rw [held_eq_weight, held_eq_weight, weight_settled hlog hfix, CreditDb.weight, CreditDb.weight]
  congr 2
  refine filter_congr fun a ha ↦ ?_
  by_cases hlv : live now a = true
  · have hout : a.id ∉ settled (releases l) := by
      intro hin
      rw [settled_releases] at hin
      obtain ⟨b, hb, hid⟩ := mem_map.mp hin
      obtain ⟨hmem, -, t, ht, hlt⟩ := hl b hb
      obtain rfl := inj_on_of_nodup_map hkeys hmem ha hid
      rw [live, Option.mem_def.mp ht] at hlv
      exact absurd (of_decide_eq_true hlv) (not_lt_of_gt hlt)
    simp [hout]
  · simp [hlv]

private theorem creditPosition_releases :
    creditPosition (replay (S := schema env) db (releases l)) customer now
      = creditPosition db customer now := by
  obtain ⟨hcus, hents, -⟩ := replay_releases env l db
  simp only [creditPosition, CreditDb.exposure, CreditDb.arBalance, hcus, hents,
    held_releases env hkeys hl]

end Releases

/-- The decision without a credential and without fuel limits. -/
theorem exists_decideAuthorization {pos : CreditPosition} {expiry : ℤ}
    (hcre : input.credentialId = none)
    (hlim : (replay (S := schema env) db log).limits = [])
    (hrow : ((replay (S := schema env) db log).customer input.customerId).isSome) :
    (∃ a, ((decideAuthorization env input now expiry false pos).alone db log n).1
        = .ok (.authorization a)) ↔ ¬(pos.status = .suspended ∨ pos.status = .closed) ∧ ¬pos.hold ∧
      input.requestedAmount ≤ .ofUnits 2 pos.available ∧
      (input.requestedAmount.store 14 2).isSome := by
  have hdeny : ∀ {ruleCode detail}, ¬∃ a, ((deny env input ruleCode detail).alone db log n).1
      = .ok (.authorization a) := by
    rintro ruleCode detail ⟨a, ha⟩
    unfold deny at ha
    split at ha <;> cases ha
  unfold decideAuthorization
  rw [if_neg nofun]
  split
  next hst => exact iff_of_false hdeny fun h ↦ h.1 hst
  next hst =>
  split
  next hhold => exact iff_of_false hdeny fun h ↦ h.2.1 hhold
  next hfr =>
  rw [hcre]
  dsimp only
  unfold checkCredit
  split
  swap
  next hover => exact iff_of_false hdeny fun h ↦ hover h.2.2.1
  next hfits =>
  have hper : violatedPeriod env (replay (S := schema env) db log) input now = none := by
    simp [violatedPeriod, hlim]
  rw [Prog.alone_query]
  dsimp only [exec]
  rw [hper, append_nil, approve, Prog.alone_query]
  dsimp only [exec]
  unfold insertAuthorization
  rcases input.requestedAmount.store 14 2 with _ | amount
  · exact iff_of_false (nofun) fun h ↦ by cases h.2.2.2
  · dsimp only
    rw [if_pos hrow]
    exact iff_of_true ⟨_, rfl⟩ ⟨hst, hfr, hfits, rfl⟩

theorem authorized_iff (hkeys : (db.authorizations.map (·.id)).Nodup) (hlim : db.limits = [])
    (hcre : input.credentialId = none) : Authorized env db n input now clock ↔
      AdmitsHold db input.customerId input.requestedAmount now := by
  let Q : Except CreditError CreditResult × CreditDb × ℕ → Prop := fun out ↦
    (∃ a, out.1 = .ok (.authorization a)) ↔ AdmitsHold db input.customerId input.requestedAmount now
  have haut : ∀ n, Q ((authorize env input now (clock + 3600000000) false).alone db [] n) := by
    intro n
    refine Prog.alone_reply rfl fun ids _ ↦ ?_
    rw [alone_lockAll]
    refine Prog.alone_step fun ws r hout ↦ ?_
    obtain ⟨rfl, -⟩ := Prod.mk.inj hout
    let l := db.authorizations.filter fun a ↦ a.id ∈ ids ∧ a.Stale now
    have hl : ∀ a ∈ l, a ∈ db.authorizations ∧ a.Stale now := fun a ha ↦
      ⟨(mem_filter.mp ha).1, (of_decide_eq_true (mem_filter.mp ha).2).2⟩
    obtain ⟨hcus, -, hnol⟩ := replay_releases env l db
    refine Prog.alone_reply rfl fun pos hpos ↦ ?_
    have hpos : creditPosition db input.customerId now = pos :=
      (creditPosition_releases env hkeys hl).symm.trans hpos
    rcases hrow : db.customer input.customerId with _ | c <;> rw [creditPosition, hrow] at hpos
    · subst hpos
      exact iff_of_false (nofun) (not_admits hrow)
    · subst hpos
      refine (exists_decideAuthorization hcre (hnol.trans hlim) ?_).trans ?_
      · rw [hcus, hrow]
        rfl
      · rw [AdmitsHold, admits_iff hrow, FitsLiveHolds]
        simp only [Customer.onHold]
        grind
  change Q _
  refine Prog.alone_reply rfl fun found _ ↦ ?_
  split
  · exact haut _
  · exact haut _

/-! ## The comparison

Both rules compare the exposure and the amount with the limit; what can part them is read off the
customer's rows. -/

def Within (limit exposure : Money) (amount : Numeric) : Prop :=
  .ofUnits 2 exposure + amount ≤ ofUnits 2 limit
  deriving Decidable

/-- The state of a customer keeps the two rules together. One that is deleted or closed, and so is
refused one of the two, has no room for the amount in the other. For anyone else the exposure is a
number if the limit is one, the new balance fits its column if the amount is within the limit, and
the holds that have expired do not take the exposure and the amount across the limit. -/
def Customer.OneRule (c : Customer) (exposure expired : Money) (amount : Numeric) (fits : Bool) :
    Prop :=
  (c.status = .deleted → exposure ≠ ⊤ ∧ ¬Within c.creditLimit exposure amount) ∧
    (c.status = .closed → fits → ¬Within c.creditLimit (exposure + expired) amount) ∧
    (c.status ≠ .deleted → c.status ≠ .closed → (exposure = ⊤ → c.creditLimit = ⊤) ∧
      (Within c.creditLimit exposure amount → fits) ∧
      (fits → (Within c.creditLimit exposure amount ↔
        Within c.creditLimit (exposure + expired) amount)))
  deriving Decidable

/-- The customer's state does so unless the customer is on hold or the amount cannot be stored,
which both rules refuse. -/
def OneRule (db : CreditDb) (customer : Uuid) (amount : Numeric) (now : ℤ) : Prop :=
  ∀ c ∈ db.customer customer, c.onHold = false → (amount.store 14 2).isSome →
    c.OneRule (db.exposure customer (live now)) (db.unreleased customer now) amount
      ((.ofUnits 2 (db.arBalance customer) + amount).store 14 2).isSome
  deriving Decidable

private theorem within_top {limit : Money} :
    Within limit ⊤ amount ↔ limit = ⊤ := Numeric.nan_le_ofUnits_iff

theorem fitsAllHolds_iff {limit : Money} (now : ℤ) : FitsAllHolds db customer limit amount ↔
    Within limit (db.exposure customer (live now) + db.unreleased customer now) amount ∧
      ((.ofUnits 2 (db.arBalance customer) + amount).store 14 2).isSome := by
  rw [FitsAllHolds, ofUnits_add, Within, ← db.exposure_eq_live_add]
  rfl

theorem fitsLiveHolds_iff {limit : Money} : FitsLiveHolds db customer limit amount now ↔
    db.exposure customer (live now) = ⊤ ∨
      Within limit (db.exposure customer (live now)) amount := by
  have hsub : limit - db.arBalance customer - db.held customer (live now) =
      limit - db.exposure customer (live now) := by
    rw [CreditDb.exposure, sub_eq_add_neg, sub_eq_add_neg, sub_eq_add_neg, neg_add_rev, add_assoc,
      add_comm (-db.arBalance customer)]
  rw [FitsLiveHolds, hsub, Numeric.le_ofUnits_sub_iff, Within]

theorem charged_iff_authorized_iff_oneRule (env : Env) (db : CreditDb)
    (hkeys : (db.authorizations.map (·.id)).Nodup) (hlimits : db.limits = []) (customer : Uuid)
    (amount : Numeric) (vehicle product : Option Uuid) (now clock : ℤ) (n : ℕ) :
    (Charged env db n customer amount ↔
        Authorized env db n ⟨customer, vehicle, none, product, amount⟩ now clock) ↔
      OneRule db customer amount now := by
  rw [charged_iff, authorized_iff hkeys hlimits rfl]
  rcases hrow : db.customer customer with _ | c
  · exact iff_of_true (iff_of_false (not_admits hrow) (not_admits hrow))
      fun c hc ↦ by rw [hrow] at hc; cases hc
  · rw [AdmitsCharge, AdmitsHold, admits_iff hrow, admits_iff hrow, fitsAllHolds_iff now,
      fitsLiveHolds_iff, OneRule, hrow]
    simp only [Option.mem_some_iff, forall_eq', Customer.OneRule]
    by_cases hnan : db.exposure customer (live now) = ⊤
    · simp only [hnan, top_add, within_top]
      grind
    · grind

/-- A hold of 60 that expired at the instant 10 and has not been released. -/
def expiredHold : CreditDb :=
  { creditDb with authorizations :=
      [⟨5, 1, none, none, (6000 : ℤ), (6000 : ℤ), .approved, some 10, none, 0⟩] }

/-- After the hold has expired it is still in the way of a charge of 50, but not of an
authorization. -/
theorem not_oneRule_of_expired : ¬(Charged .plain expiredHold 9 1 (.finite 50) ↔
    Authorized .plain expiredHold 9 ⟨1, none, none, none, .finite 50⟩ 20 20) := by
  rw [charged_iff, authorized_iff (by decide) rfl rfl]
  simp only [AdmitsCharge, AdmitsHold, Admits]
  decide +kernel

/-- Before it has expired it is in the way of both. -/
theorem charged_iff_authorized_iff_oneRule_live : OneRule expiredHold 1 (.finite 50) 9 ∧
    (Charged .plain expiredHold 9 1 (.finite 50) ↔
      Authorized .plain expiredHold 9 ⟨1, none, none, none, .finite 50⟩ 9 9) := by
  have hrule : OneRule expiredHold 1 (.finite 50) 9 := by decide +kernel
  exact ⟨hrule,
    (charged_iff_authorized_iff_oneRule .plain expiredHold (by decide) rfl 1 (.finite 50)
    none none 9 9 9).mpr hrule⟩

end FuelGrid.Credit
