import FuelGrid.Revenue.Consistency
import FuelGrid.Text.Decimals

/-!
# Amounts are numbers

The handlers get an amount as a text. `parseDecimal` reads it as a `float64` and the handlers refuse
what is not a decimal or has the wrong sign; then the text itself goes to the database, which reads
it as a `numeric`. `ParseFloat` takes the word `NaN`, which is not less than zero, the column takes
it too, and every sum over it is `NaN`.
-/

namespace FuelGrid.Revenue

open Sql Text

/-! ## Requests with texts -/

/-- `parseDecimal`, with the number before it is rounded. -/
def parseDecimal (s : String) : Option Numeric :=
  if s = "" then none else parseFloat s.toList

/-- The environment of a request with this text for its amount. -/
def Env.reading (env : Env) (text : String) : Env :=
  { env with
    nonNegative := fun _ ↦ (parseDecimal text).any floatNonneg
    positive := fun _ ↦ (parseDecimal text).any floatPos }

/-- The amount that a statement gets. A text that is none fails the statement, as an infinity
does. -/
def sentAmount (text : String) : Numeric := (numericIn text.toList).getD (.infinity false)

inductive TextOp where
  | recordPayment (req : PaymentRequest) (text : String)
  | recordCustomerPayment (customer : Uuid) (text : String)

def TextOp.prog (env : Env) : TextOp → Txn env
  | .recordPayment req text =>
    handleRecordPayment (env.reading text) { req with amount := sentAmount text }
  | .recordCustomerPayment customer text =>
    handleRecordCustomerPayment (env.reading text) ⟨customer, sentAmount text⟩

def TextOp.text : TextOp → String
  | .recordPayment _ text => text
  | .recordCustomerPayment _ text => text

/-- The word `NaN`, in any case of letters. -/
def IsNaN (text : String) : Prop := text.toList.map Char.toLower = ['n', 'a', 'n']

instance : DecidablePred IsNaN := fun text ↦
  inferInstanceAs (Decidable (text.toList.map Char.toLower = ['n', 'a', 'n']))

/-- What is stored and what is summed of it are numbers. -/
structure FiniteMoney (db : RevenueDb) : Prop where
  payments : ∀ p ∈ db.payments, p.amount ≠ ⊤
  entries : ∀ e ∈ db.credit.entries, e.amount ≠ ⊤
  balance : ∀ customer, db.credit.arBalance customer ≠ ⊤
  tendered : ∀ shift, (db.reconcileShift shift).tendered ≠ ⊤

private theorem finiteMoney_of_amounts {db : RevenueDb} (hpays : ∀ p ∈ db.payments, p.amount ≠ ⊤)
    (hents : ∀ e ∈ db.credit.entries, e.amount ≠ ⊤) : FiniteMoney db where
  payments := hpays
  entries := hents
  balance _ := sum_map_ne_top.mpr fun e he ↦ hents e (mem_filter.mp he).1
  tendered _ := sum_map_ne_top.mpr fun p hp ↦ hpays p (mem_filter.mp hp).1

/-- An accepted text is not `NaN` to the database unless it is that word. -/
theorem sentAmount_ne_nan {text : String} {f : Numeric → Bool} (htext : ¬IsNaN text)
    (hgate : (parseDecimal text).any f) : sentAmount text ≠ .nan := by
  unfold parseDecimal at hgate
  split at hgate
  · cases hgate
  rcases hrd : parseFloat text.toList with _ | x
  · rw [hrd] at hgate
    cases hgate
  · have hx : x ≠ .nan := by
      rintro rfl
      exact htext (parseFloat_eq_nan_iff.mp hrd)
    have hsent := numericIn_ne_nan hrd hx
    unfold sentAmount
    rcases hin : numericIn text.toList with _ | y
    · simp
    · rw [hin] at hsent
      simpa using hsent

private theorem store_ne_top {p s : ℕ} {x : Numeric} {u : WithTop ℤ} (hx : x ≠ .nan)
    (h : x.store p s = some u) : u ≠ ⊤ := by
  obtain ⟨q, v, -, -, rfl⟩ := Numeric.store_eq_some hx h
  exact WithTop.coe_ne_top

private theorem entries_of_sideOf {env : Env} {amount : Numeric} {ws : List Write} (db : RevenueDb)
    (hamt : amount ≠ .nan) (hws : ∀ w ∈ ws, w.SideOf amount)
    (h : ∀ e ∈ db.credit.entries, e.amount ≠ ⊤) :
    ∀ e ∈ (replay (S := schema env) db ws).credit.entries, e.amount ≠ ⊤ := by
  induction ws generalizing db with
  | nil => exact h
  | cons w ws ih =>
    obtain ⟨hw, hws⟩ := forall_mem_cons.mp hws
    refine ih _ hws ?_
    rcases w with p | v | d | m | o | w | w
    · exact h
    · exact h
    · exact h
    · exact h
    · exact h
    · rcases w with e | _ | _ | _
      · intro e' he'
        rcases mem_snoc.mp he' with he' | rfl
        · exact h e' he'
        · exact store_ne_top hamt hw
      all_goals exact hw.elim
    · exact h

section Rules

variable (env : Env) {db : RevenueDb} {n : ℕ} (hdb : FiniteMoney db)

include hdb

theorem finiteMoney_handleRecordPayment {req : PaymentRequest}
    (hreq : env.nonNegative req.amount → req.amount ≠ .nan) :
    FiniteMoney ((handleRecordPayment env req).alone db [] n).2.1 := by
  let R : Except HttpError RevenueResult × RevenueDb × ℕ → Prop := fun out ↦ FiniteMoney out.2.1
  change R ((handleRecordPayment env req).alone db [] n)
  refine alone_of_yields (fun _ _ _ ↦ hdb)
    (yields_handleRecordPayment (fun _ _ _ _ ↦ hdb) fun p ws n' hp hside _ ↦ ?_)
  have hamt := hreq hp.accepted
  have hbk : SameBooks (db.apply (.insertPayment p)) (replay (S := schema env)
    (db.apply (.insertPayment p)) ws) := sameBooks_replay (fun w hw ↦ (hside w hw).aside) _
  refine finiteMoney_of_amounts (fun p' hp' ↦ ?_)
    (entries_of_sideOf (db.apply (.insertPayment p)) hamt hside hdb.entries)
  change p' ∈ (replay (S := schema env) (db.apply (.insertPayment p)) ws).payments at hp'
  rw [hbk.payments] at hp'
  rcases mem_snoc.mp hp' with hp' | rfl
  · exact hdb.payments p' hp'
  · exact store_ne_top hamt hp.amount

theorem finiteMoney_handleRecordCustomerPayment {req : CustomerPaymentRequest}
    (hreq : env.positive req.amount → req.amount ≠ .nan) :
    FiniteMoney ((handleRecordCustomerPayment env req).alone db [] n).2.1 := by
  let R : Except HttpError RevenueResult × RevenueDb × ℕ → Prop := fun out ↦ FiniteMoney out.2.1
  change R ((handleRecordCustomerPayment env req).alone db [] n)
  refine alone_of_yields (fun _ _ _ ↦ hdb)
    (yields_handleRecordCustomerPayment fun e o m n' hacc hins _ ↦ ?_)
  obtain ⟨-, -, hsd, -⟩ := Credit.insertPayment_eq_ok hins
  have hamt : -req.amount ≠ .nan := by
    have hne := hreq hacc
    rcases hx : req.amount with _ | _ | _
    · exact absurd hx hne
    all_goals exact nofun
  refine finiteMoney_of_amounts hdb.payments fun e' he' ↦ ?_
  rcases mem_snoc.mp he' with he' | rfl
  · exact hdb.entries e' he'
  · exact store_ne_top hamt hsd

end Rules

/-! ## Runs

While no request has the word for its amount, all stored amounts are numbers, and so are the
balance of each customer and the tenders of each shift (`finiteMoney_of_notNaN`): `numeric` knows
the word between spaces as well, but `ParseFloat` takes no spaces. -/

/-- While no request has `NaN` for its amount, what is stored and what is summed of it are
numbers. -/
theorem finiteMoney_of_notNaN {env : Env} {s₀ s : RevenueDb × ℕ} (hinit : FiniteMoney s₀.1)
    (hrun : Runs (S := schema env) (TextOp.prog env) (fun _ op ↦ ¬IsNaN op.text) s₀ s) :
    FiniteMoney s.1 := by
  refine Runs.invariant (I := fun s : RevenueDb × ℕ ↦ FiniteMoney s.1) hrun hinit
    fun s op hs hop ↦ ?_
  rcases op with ⟨req, text⟩ | ⟨customer, text⟩
  · exact finiteMoney_handleRecordPayment (env.reading text) hs fun hgate ↦
      sentAmount_ne_nan hop hgate
  · exact finiteMoney_handleRecordCustomerPayment (env.reading text) hs fun hgate ↦
      sentAmount_ne_nan hop hgate

/-- Customer 1 pays `NaN` on account, and owes `NaN` from then on. -/
theorem not_finiteMoney_of_nan :
    ∃ s, Runs (S := schema .plain) (TextOp.prog .plain) (fun _ _ ↦ True) (oneSale, 100) s ∧
      FiniteMoney oneSale ∧ s.1.credit.arBalance 1 = ⊤ ∧ ¬FiniteMoney s.1 := by
  refine exists_and_imp (fun s ↦ s.1.credit.arBalance 1 = ⊤)
    (exists_of_runAll [.recordCustomerPayment 1 "NaN"] (by decide +kernel)) ?_
  rintro _ _ htop
  exact ⟨finiteMoney_of_amounts (by decide) (by decide), htop,
    fun h ↦ h.balance 1 htop⟩

/-- A cash payment of 60.00 and 20.5 on account. -/
theorem finiteMoney_of_notNaN_paid :
    ∃ s, Runs (S := schema .plain) (TextOp.prog .plain) (fun _ op ↦ ¬IsNaN op.text)
      (oneSale, 100) s ∧ s.1.payments ≠ [] ∧ s.1.credit.entries ≠ [] ∧ FiniteMoney s.1 := by
  refine exists_and_imp (fun s ↦ s.1.payments ≠ [] ∧ s.1.credit.entries ≠ [])
    (exists_of_runAll [.recordPayment (pay 0) "60.00", .recordCustomerPayment 1 "20.5"]
      (by decide +kernel)) ?_
  rintro _ hs ⟨hpaid, hents⟩
  exact ⟨hpaid, hents,
    finiteMoney_of_notNaN (finiteMoney_of_amounts (by decide) (by decide)) hs⟩

end FuelGrid.Revenue
