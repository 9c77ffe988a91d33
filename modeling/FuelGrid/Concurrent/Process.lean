import Mathlib.Logic.Function.Basic

/-!
# Processes over a shared state

A process is a tree of operations (`Proc`): each operation is answered by the state that the
processes share, and the answer decides how the process goes on. The operations and what they do are
a parameter (`Effects`).

## Main definitions

* `Effects`, `Proc`: operations on a shared state and the processes made of them;
* `Config.step`, `Reach`: the interleaving machine and the configurations it reaches;
* `Proc.alone`: a process executed without interference;
* `Contract`, `Contract.Safe`, `Contract.sound`: rely–guarantee reasoning.
-/

namespace FuelGrid.Concurrent

/-- What the processes `T` do to the state they share. -/
structure Effects (T : Type) where
  Shared : Type
  /-- The operations of a process. -/
  Op : Type
  /-- What an operation is answered with. -/
  Reply : Op → Type
  /-- What the scheduler decides about an operation, such as whether it fails. -/
  Choice : Type
  /-- What can happen to the shared state on its own. -/
  Event : Type
  /-- Perform an operation; `none` when the process has to wait. -/
  perform : T → (o : Op) → Choice → Shared → Option (Reply o × Shared)
  occur : Event → Shared → Shared
  /-- What a process leaves behind when it is killed. -/
  kill : T → Shared → Shared

variable {T : Type} {E : Effects T} {α β : Type}

/-! ## Processes -/

/-- A process that ends with a value of type `α`. -/
inductive Proc (E : Effects T) (α : Type) where
  | ret (a : α)
  | op (o : E.Op) (next : E.Reply o → Proc E α)

namespace Proc

/-- Run the first process, then go on with its value. -/
def bind : Proc E α → (α → Proc E β) → Proc E β
  | .ret a, k => k a
  | .op o next, k => .op o fun r ↦ (next r).bind k

instance : Monad (Proc E) where
  pure := .ret
  bind := .bind

/-- The process that performs one operation. -/
def perform (o : E.Op) : Proc E (E.Reply o) := .op o .ret

/-- Execute the process without interference, with the same choice at each operation; `none` when it
has to wait. -/
def alone (t : T) (c : E.Choice) : Proc E α → E.Shared → Option (α × E.Shared)
  | .ret a, g => some (a, g)
  | .op o next, g => (E.perform t o c g).bind fun out ↦ (next out.1).alone t c out.2

theorem alone_perform (t : T) (c : E.Choice) (o : E.Op) (k : E.Reply o → Proc E α) (g : E.Shared) :
    (perform o >>= k).alone t c g =
      (E.perform t o c g).bind fun out ↦ (k out.1).alone t c out.2 := rfl

end Proc

/-! ## The machine

What an operation meets is chosen by the scheduler together with the process it lets run, so
failures are part of a schedule and not of a program. Besides, the shared state can change on its
own (`Effects.occur`) and a process can be killed at any point. -/

/-- A configuration: the shared state and what each process still has to do. -/
structure Config (E : Effects T) where
  shared : E.Shared
  proc : T → Proc E Unit

/-- What happens next. -/
inductive Act (E : Effects T) where
  | run (t : T) (c : E.Choice)
  | occur (e : E.Event)
  | kill (t : T)

namespace Config

variable [DecidableEq T]

/-- One step; `none` when the process has ended or has to wait. -/
def step (s : Config E) : Act E → Option (Config E)
  | .run t c =>
    match s.proc t with
    | .ret _ => none
    | .op o next => (E.perform t o c s.shared).map fun out ↦
        ⟨out.2, Function.update s.proc t (next out.1)⟩
  | .occur e => some ⟨E.occur e s.shared, s.proc⟩
  | .kill t => some ⟨E.kill t s.shared, Function.update s.proc t (.ret ())⟩

/-- Take the steps in order, checking `C` before each. -/
def runs (C : Config E → Act E → Prop) [∀ s a, Decidable (C s a)] (s : Config E) :
    List (Act E) → Option (Config E)
  | [] => some s
  | a :: acts => if C s a then (s.step a).bind fun s' ↦ s'.runs C acts else none

end Config

section Machine

variable [DecidableEq T] {C : Config E → Act E → Prop}

/-- The configurations reached from `s₀` by steps that all satisfy `C`. -/
inductive Reach (C : Config E → Act E → Prop) (s₀ : Config E) : Config E → Prop
  | refl : Reach C s₀ s₀
  | step {s s' : Config E} (a : Act E) : Reach C s₀ s → C s a → s.step a = some s' → Reach C s₀ s'

theorem Reach.head {s₀ s1 s : Config E} {a : Act E} (hC : C s₀ a) (hst : s₀.step a = some s1)
    (h : Reach C s1 s) : Reach C s₀ s := by
  induction h with
  | refl => exact .step a .refl hC hst
  | step b _ hC' hst' ih => exact .step b ih hC' hst'

theorem Reach.exists_of_runs [∀ s a, Decidable (C s a)] {P : Config E → Prop} [DecidablePred P]
    {s₀ : Config E} (acts : List (Act E)) (h : (s₀.runs C acts).any (P ·) = true) :
    ∃ s, Reach C s₀ s ∧ P s := by
  obtain ⟨s, hs, hP⟩ := (Option.any_eq_true _ _).mp h
  refine ⟨s, ?_, of_decide_eq_true hP⟩
  clear h hP
  induction acts generalizing s₀ with
  | nil =>
    cases hs
    exact .refl
  | cons a acts ih =>
    simp only [Config.runs] at hs
    split at hs
    next hC =>
      obtain ⟨s1, hst, hrest⟩ := Option.bind_eq_some_iff.mp hs
      exact .head hC hst (ih hrest)
    · cases hs

end Machine

/-! ## Rely–guarantee reasoning

The processes of a run are verified one by one. A `Contract` says what each of them may assume about
the steps of the others (`rely`), and `Contract.Safe` executes a process symbolically, with the
shared state moving along `rely` before each operation. Each operation has to keep the invariant and
to be a move that the other processes rely on. `Contract.sound` is the rule that puts the processes
together. -/

/-- The terms on which the processes of a run interleave. -/
structure Contract (E : Effects T) where
  /-- The invariant of the shared state. -/
  inv : E.Shared → Prop
  /-- How the shared state can move under a process. -/
  rely : T → E.Shared → E.Shared → Prop
  /-- What the run condition says about an operation of a process. -/
  cond : T → (o : E.Op) → E.Choice → E.Shared → Prop
  /-- What it says about an event. -/
  condEvent : E.Event → E.Shared → Prop
  rely_refl : ∀ t g, rely t g g
  rely_trans : ∀ {t g₁ g₂ g₃}, rely t g₁ g₂ → rely t g₂ g₃ → rely t g₁ g₃

namespace Contract

variable (K : Contract E)

/-- The move keeps the invariant and is one that the processes with `P` rely on. -/
structure Keeps (P : T → Prop) (g g' : E.Shared) : Prop where
  inv : K.inv g'
  rely : ∀ u, P u → K.rely u g g'

variable {K} in
theorem Keeps.imp {P P' : T → Prop} {g g' : E.Shared} (h : K.Keeps P g g') (hP : ∀ u, P' u → P u) :
    K.Keeps P' g g' :=
  ⟨h.inv, fun u hu ↦ h.rely u (hP u hu)⟩

variable {K} in
theorem Keeps.trans {P : T → Prop} {g g' g'' : E.Shared} (h : K.Keeps P g g')
    (h' : K.Keeps P g' g'') : K.Keeps P g g'' :=
  ⟨h'.inv, fun u hu ↦ K.rely_trans (h.rely u hu) (h'.rely u hu)⟩

/-- Whatever the other processes do, each operation of the process keeps the contract, and `Q` holds
when it ends. -/
def Safe (t : T) : Proc E α → E.Shared → (α → E.Shared → Prop) → Prop
  | .ret a, g, Q => ∀ g', K.rely t g g' → K.inv g' → Q a g'
  | .op o next, g, Q => ∀ g', K.rely t g g' → K.inv g' → ∀ c, K.cond t o c g' → ∀ r g'',
      E.perform t o c g' = some (r, g'') → K.Keeps (· ≠ t) g' g'' ∧ Safe t (next r) g'' Q

variable {K} {t : T} {g : E.Shared} {Q : α → E.Shared → Prop} {p : Proc E α}

/-- To show that a process is safe, show it for what the others can make of the state. -/
theorem safe_of_rely (h : ∀ g', K.rely t g g' → K.inv g' → K.Safe t p g' Q) : K.Safe t p g Q := by
  cases p with
  | ret a => exact fun g' hr hinv ↦ h g' hr hinv g' (K.rely_refl t g') hinv
  | op o next => exact fun g' hr hinv ↦ h g' hr hinv g' (K.rely_refl t g') hinv

/-- Safety survives what the contract lets the others do. -/
theorem Safe.mono {g' : E.Shared} (h : K.Safe t p g Q) (hr : K.rely t g g') :
    K.Safe t p g' Q := by
  cases p with
  | ret a => exact fun g'' hr' ↦ h g'' (K.rely_trans hr hr')
  | op o next => exact fun g'' hr' ↦ h g'' (K.rely_trans hr hr')

theorem Safe.imp {Q' : α → E.Shared → Prop} (h : K.Safe t p g Q) (hQ : ∀ a g', Q a g' → Q' a g') :
    K.Safe t p g Q' := by
  induction p generalizing g with
  | ret a => exact fun g' hr hinv ↦ hQ a g' (h g' hr hinv)
  | op o next ih =>
    intro g' hr hinv c hc r g'' hop
    obtain ⟨hkp, hnx⟩ := h g' hr hinv c hc r g'' hop
    exact ⟨hkp, ih r hnx⟩

theorem safe_pure {a : α} (h : ∀ g', K.rely t g g' → K.inv g' → Q a g') :
    K.Safe t (pure a) g Q := h

theorem safe_bind {k : α → Proc E β} {Q : β → E.Shared → Prop}
    (h : K.Safe t p g fun a g' ↦ K.Safe t (k a) g' Q) : K.Safe t (p >>= k) g Q := by
  induction p generalizing g with
  | ret a => exact safe_of_rely h
  | op o next ih =>
    intro g' hr hinv c hc r g'' hop
    obtain ⟨hkp, hnx⟩ := h g' hr hinv c hc r g'' hop
    exact ⟨hkp, ih r hnx⟩

/-- To go past an operation, take its answer as given. -/
theorem safe_perform {o : E.Op} {k : E.Reply o → Proc E α}
    (h : ∀ g', K.rely t g g' → K.inv g' → ∀ c, K.cond t o c g' → ∀ r g'',
      E.perform t o c g' = some (r, g'') → K.Keeps (· ≠ t) g' g'' ∧ K.Safe t (k r) g'' Q) :
    K.Safe t (Proc.perform o >>= k) g Q := h

section Sound

variable [DecidableEq T] {C : Config E → Act E → Prop}

/-- The contract suits the condition `C` on steps. -/
structure Suits (K : Contract E) (C : Config E → Act E → Prop) : Prop where
  cond : ∀ {s t c o next}, C s (.run t c) → s.proc t = .op o next → K.cond t o c s.shared
  event : ∀ {s e}, C s (.occur e) → K.condEvent e s.shared
  occur : ∀ {e g}, K.condEvent e g → K.inv g → K.Keeps (fun _ ↦ True) g (E.occur e g)
  kill : ∀ {t g}, K.inv g → K.Keeps (· ≠ t) g (E.kill t g)

/-- If every process is safe at the start, then in every configuration reached by steps that satisfy
`C` the invariant holds and every process is safe from there. -/
theorem sound (h : K.Suits C) {g0 : E.Shared} {proc : T → Proc E Unit} {Q : T → E.Shared → Prop}
    {s : Config E} (hinv : K.inv g0) (hproc : ∀ t, K.Safe t (proc t) g0 fun _ ↦ Q t)
    (hkill : ∀ t g, K.inv g → K.Safe t (.ret ()) (E.kill t g) fun _ ↦ Q t)
    (hrch : Reach C ⟨g0, proc⟩ s) :
    K.inv s.shared ∧ ∀ t, K.Safe t (s.proc t) s.shared fun _ ↦ Q t := by
  induction hrch with
  | refl => exact ⟨hinv, hproc⟩
  | @step s s' a _ hC hst ih =>
    obtain ⟨hI, hsafe⟩ := ih
    -- a process that does not move stays safe, since the move is one it relies on
    have hoth : ∀ {P : T → Prop} {g'}, K.Keeps P s.shared g' → ∀ u, P u →
        K.Safe u (s.proc u) g' fun _ ↦ Q u := fun hkp u hu ↦ (hsafe u).mono (hkp.rely u hu)
    cases a with
    | run t c =>
      simp only [Config.step] at hst
      split at hst
      · cases hst
      next o next hp =>
        obtain ⟨⟨r, g'⟩, hop, rfl⟩ := Option.map_eq_some_iff.mp hst
        have ht := hsafe t
        rw [hp] at ht
        obtain ⟨hkp, hnx⟩ := ht s.shared (K.rely_refl t _) hI c (h.cond hC hp) r g' hop
        refine ⟨hkp.inv, fun u ↦ ?_⟩
        dsimp only
        by_cases hu : u = t
        · subst hu
          rwa [Function.update_self]
        · rw [Function.update_of_ne hu]
          exact hoth hkp u hu
    | occur e =>
      cases hst
      have hkp := h.occur (h.event hC) hI
      exact ⟨hkp.inv, fun u ↦ hoth hkp u trivial⟩
    | kill t =>
      cases hst
      have hkp := h.kill (t := t) hI
      refine ⟨hkp.inv, fun u ↦ ?_⟩
      dsimp only
      by_cases hu : u = t
      · subst hu
        rw [Function.update_self]
        exact hkill u _ hI
      · rw [Function.update_of_ne hu]
        exact hoth hkp u hu

end Sound

end Contract

export Contract (safe_bind safe_perform safe_pure)

end FuelGrid.Concurrent
