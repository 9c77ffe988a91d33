import Mathlib.Algebra.Order.Ring.Int
import Mathlib.Data.List.Forall2
import Mathlib.Logic.Function.Basic

/-!
# The rate limiter

`Limiter.allow` counts the calls on a bucket in a Redis key: one transaction increments the counter
and sets its time to live. The budget is meant for fixed windows: a window opens with the first call
after the key is absent, closes `window` later, and the first `limit` calls in it are allowed.

The time to live is set by every call, not only by the one that opens the window, so a call inside
an open window moves its end; and `EXPIRE` takes whole seconds, so the client rounds any other
window on the way. The calls see fixed windows exactly when the window is a whole number of seconds
and each call comes together with the one before it or at least a window after it
(`fixedWindows_iff`); a caller who keeps calling stays limited for ever.
-/

namespace FuelGrid.RateLimit

open Function (update update_self)

/-! ## The store

Instants and durations are in nanoseconds, as in the source; the store itself is told the time to
live of a key in seconds. -/

/-- A counter and the instant at which it expires, if it has a time to live. -/
structure Counter where
  count : ℕ
  expiresAt : Option ℤ

/-- A second, in nanoseconds. -/
def second : ℤ := 1000000000

/-- The keys of the store, expired ones included. -/
abbrev Store := String → Option Counter

/-- The counter at an instant; an expired key is absent. -/
def Store.get (s : Store) (key : String) (now : ℤ) : Option Counter :=
  (s key).filter fun c ↦ c.expiresAt.all fun t ↦ decide (now < t)

/-- `INCR`: an absent key counts from zero and has no time to live; another one keeps its own. -/
def Store.incr (s : Store) (key : String) (now : ℤ) : ℕ × Store :=
  match s.get key now with
  | none => (1, update s key (some ⟨1, none⟩))
  | some c => (c.count + 1, update s key (some { c with count := c.count + 1 }))

/-- `EXPIRE`: the key expires after `seconds`; a time to live that is not positive deletes it. -/
def Store.expire (s : Store) (key : String) (seconds now : ℤ) : Store :=
  match s.get key now with
  | none => s
  | some c =>
    update s key
      (if seconds ≤ 0 then none else some { c with expiresAt := now + seconds * second })

/-- The client of the store. It sends a duration to `EXPIRE` in seconds, and how it rounds one that
is not a whole number of them is left open. -/
structure Client where
  formatSec : ℤ → ℤ
  formatSec_whole : ∀ n, formatSec (n * second) = n
  formatSec_nonpos : ∀ d ≤ 0, formatSec d ≤ 0

/-- A client that sends one second for less than one and drops the fraction of anything longer. -/
def truncating : Client where
  formatSec d := if 0 < d ∧ d < second then 1 else d.tdiv second
  formatSec_whole n := by
    rw [if_neg (by unfold second; omega), Int.mul_tdiv_cancel n (by decide)]
  formatSec_nonpos d hd := by
    have hneg : 0 ≤ (-d).tdiv second := Int.tdiv_nonneg (by omega) (by decide)
    rw [Int.neg_tdiv] at hneg
    rw [if_neg (by omega)]
    omega

/-! ## The limiter -/

structure Limiter where
  client : Client
  keyPrefix : String

def Limiter.key (l : Limiter) (bucket : String) : String := l.keyPrefix ++ bucket

inductive RateLimitError where
  | limited
  deriving DecidableEq

/-- The answer to a call that is the `count`-th one. -/
def answer (limit : ℤ) (count : ℕ) : Except RateLimitError Unit :=
  if limit < count then .error .limited else .ok ()

/-- Count a call at `now`: its answer, and the store after it. -/
def Limiter.allow (l : Limiter) (bucket : String) (limit window now : ℤ) (s : Store) :
    Except RateLimitError Unit × Store :=
  let (count, s) := s.incr (l.key bucket) now
  (answer limit count, s.expire (l.key bucket) (l.client.formatSec window) now)

/-- Clear the counter of a bucket. -/
def Limiter.reset (l : Limiter) (bucket : String) (s : Store) : Store :=
  update s (l.key bucket) none

section Calls

variable (l : Limiter) (bucket : String) (limit window : ℤ)

/-- Calls on a bucket, each `gap` after the one before it: their instants, their answers and the
stores they leave. -/
def calls (s : Store) (now : ℤ) : List ℕ → List (ℤ × Except RateLimitError Unit × Store)
  | [] => []
  | gap :: gaps =>
    let out := l.allow bucket limit window (now + gap) s
    (now + gap, out) :: calls out.2 (now + gap) gaps

/-- A window: when it opened and how many calls it has seen. -/
structure Window where
  opened : ℤ
  seen : ℕ

/-- The number of calls in the window, while it is open. -/
def Window.openAt (w : Window) (t : ℤ) : Option ℕ :=
  if t < w.opened + window then some w.seen else none

/-- The window of a call: one that is open, or a new one. -/
def Window.next (w : Option Window) (now : ℤ) : Window :=
  match w.filter fun w ↦ decide (now < w.opened + window) with
  | none => ⟨now, 1⟩
  | some w => ⟨w.opened, w.seen + 1⟩

/-- The same calls in fixed windows, after the window `w`. -/
def windows (w : Option Window) (now : ℤ) : List ℕ → List (Except RateLimitError Unit × Window)
  | [] => []
  | gap :: gaps =>
    let w := Window.next window w (now + gap)
    (answer limit w.seen, w) :: windows w (now + gap) gaps

/-- A call sees its fixed window: it is answered as in the window, and from then on the key is
present, with the same count, until the window closes. -/
def InWindow (call : ℤ × Except RateLimitError Unit × Store)
    (fixed : Except RateLimitError Unit × Window) : Prop :=
  call.2.1 = fixed.1 ∧ ∀ t, call.1 ≤ t →
    (call.2.2.get (l.key bucket) t).map Counter.count = fixed.2.openAt window t

def FixedWindows (s : Store) (now : ℤ) (gaps : List ℕ) : Prop :=
  List.Forall₂ (InWindow l bucket window) (calls l bucket limit window s now gaps)
    (windows limit window none now gaps)

end Calls

variable {l : Limiter} {bucket key : String} {limit window now t : ℤ} {s : Store} {k : ℕ}

private theorem incr_eq (hk : ((s.get key now).map Counter.count).getD 0 = k) :
    ∃ c : Counter, c.count = k + 1 ∧ (s.incr key now).1 = k + 1 ∧
      (s.incr key now).2.get key now = some c := by
  unfold Store.incr
  cases hget : s.get key now with
  | none =>
    obtain rfl : 0 = k := by simpa [hget] using hk
    exact ⟨⟨1, none⟩, rfl, rfl, by simp [Store.get]⟩
  | some c =>
    obtain rfl : c.count = k := by simpa [hget] using hk
    refine ⟨{ c with count := c.count + 1 }, rfl, rfl, ?_⟩
    simpa [Store.get] using (Option.filter_eq_some_iff.mp hget).2

private theorem get_expire {c : Counter} {seconds : ℤ} (hget : s.get key now = some c)
    (ht : now ≤ t) :
    ((s.expire key seconds now).get key t).map Counter.count =
      Window.openAt (seconds * second) ⟨now, c.count⟩ t := by
  rw [Store.expire, hget]
  simp only [Store.get, update_self, Window.openAt]
  by_cases hsec : seconds ≤ 0
  · rw [if_pos hsec, if_neg (by unfold second; omega)]
    rfl
  · rw [if_neg hsec]
    by_cases hop : t < now + seconds * second <;> simp [hop]

/-- A call is counted, and its counter expires as long after it as the client says. -/
theorem inWindow_allow (limit window : ℤ)
    (hk : ((s.get (l.key bucket) now).map Counter.count).getD 0 = k) :
    InWindow l bucket (l.client.formatSec window * second)
      (now, l.allow bucket limit window now s) (answer limit (k + 1), ⟨now, k + 1⟩) := by
  obtain ⟨c, hcnt, hincr, hget⟩ := incr_eq hk
  refine ⟨?_, fun t ht ↦ ?_⟩
  · simp only [Limiter.allow, hincr]
  · rw [← hcnt]
    exact get_expire hget ht

/-! ## Fixed windows

Two things can part the calls from their windows: the client rounds the window, or a call moves the
end of an open one. -/

/-- The time to live that the client sends is the window just when it has nothing to round. -/
theorem openAt_formatSec_iff (c : Client) (now : ℤ) (k : ℕ) :
    (∀ t, now ≤ t → Window.openAt (c.formatSec window * second) ⟨now, k⟩ t =
        Window.openAt window ⟨now, k⟩ t) ↔ window ≤ 0 ∨ second ∣ window := by
  constructor
  · intro h
    by_contra! hcon
    obtain ⟨hpos, hdvd⟩ := hcon
    rcases lt_trichotomy (c.formatSec window * second) window with hlt | heq | hgt
    · have hend := h (now + max (c.formatSec window * second) 0) (by omega)
      rw [Window.openAt, if_neg (by dsimp only; omega), Window.openAt,
        if_pos (by dsimp only; omega)] at hend
      cases hend
    · exact hdvd (heq ▸ Dvd.intro_left _ rfl)
    · have hend := h (now + window) (by omega)
      rw [Window.openAt, if_pos (by dsimp only; omega), Window.openAt,
        if_neg (by dsimp only; omega)] at hend
      cases hend
  · rintro (hneg | ⟨n, rfl⟩) t ht
    · have hsec := c.formatSec_nonpos window hneg
      rw [Window.openAt, if_neg (by unfold second; dsimp only; omega), Window.openAt,
        if_neg (by dsimp only; omega)]
    · rw [mul_comm second n, c.formatSec_whole]

theorem inWindow_allow_iff (limit window : ℤ)
    (hk : ((s.get (l.key bucket) now).map Counter.count).getD 0 = k) :
    InWindow l bucket window (now, l.allow bucket limit window now s)
      (answer limit (k + 1), ⟨now, k + 1⟩) ↔ window ≤ 0 ∨ second ∣ window := by
  have hcall := inWindow_allow limit window hk
  rw [← openAt_formatSec_iff l.client now (k + 1)]
  constructor
  · intro h t ht
    rw [← hcall.2 t ht, h.2 t ht]
  · intro h
    refine ⟨hcall.1, fun t ht ↦ ?_⟩
    rw [hcall.2 t ht, h t ht]

/-- After a call, the next ones see fixed windows exactly when none of them moves the end of one. -/
theorem forall₂_inWindow_iff (gaps : List ℕ) (hwhole : window ≤ 0 ∨ second ∣ window)
    (h : ∀ t, now ≤ t → (s.get (l.key bucket) t).map Counter.count =
      Window.openAt window ⟨now, k⟩ t) :
    List.Forall₂ (InWindow l bucket window) (calls l bucket limit window s now gaps)
        (windows limit window (some ⟨now, k⟩) now gaps) ↔
      ∀ gap ∈ gaps, gap = 0 ∨ window ≤ gap := by
  induction gaps generalizing s now k with
  | nil => simp [calls, windows]
  | cons gap gaps ih =>
    have hk := h (now + gap) (by omega)
    rw [calls, windows, List.forall₂_cons, List.forall_mem_cons]
    by_cases hop : (gap : ℤ) < window
    · -- the window is open: the call moves its end unless it comes at once
      rw [Window.openAt, if_pos (by simpa using hop)] at hk
      have hcall := (inWindow_allow_iff limit window (k := k) (by rw [hk]; rfl)).mpr hwhole
      have hnx : Window.next window (some ⟨now, k⟩) (now + gap) = ⟨now, k + 1⟩ := by
        simp [Window.next, Option.filter, hop]
      rw [hnx]
      rcases Nat.eq_zero_or_pos gap with rfl | hpos
      · have hnow : now + ((0 : ℕ) : ℤ) = now := by omega
        rw [hnow] at hcall ⊢
        rw [ih hcall.2, and_iff_right hcall, and_iff_right (.inl rfl)]
      · refine iff_of_false (fun hall ↦ ?_) fun hall ↦ by omega
        have hlate := (hcall.2 (now + window) (by simp only; omega)).symm.trans
          (hall.1.2 (now + window) (by simp only; omega))
        simp [Window.openAt, hpos] at hlate
    · -- the window is closed: the call opens the next one
      rw [Window.openAt, if_neg (by simpa using hop)] at hk
      have hcall := (inWindow_allow_iff limit window (k := 0) (by rw [hk]; rfl)).mpr hwhole
      have hnx : Window.next window (some ⟨now, k⟩) (now + gap) = ⟨now + gap, 1⟩ := by
        simp [Window.next, Option.filter, hop]
      rw [hnx, ih hcall.2, and_iff_right hcall, and_iff_right (.inr (by omega))]

/-- **Fixed windows.** Calls on a bucket without a counter see fixed windows exactly when there are
none, or the client has nothing to round and each call but the first comes together with the one
before it or at least a window after it. -/
theorem fixedWindows_iff (l : Limiter) (bucket : String) (limit window now : ℤ) (s : Store)
    (gaps : List ℕ) (habsent : ∀ t, now ≤ t → s.get (l.key bucket) t = none) :
    FixedWindows l bucket limit window s now gaps ↔
      gaps = [] ∨ (window ≤ 0 ∨ second ∣ window) ∧ ∀ gap ∈ gaps.tail, gap = 0 ∨ window ≤ gap := by
  cases gaps with
  | nil => simp [FixedWindows, calls, windows]
  | cons gap gaps =>
    have hzero : ((s.get (l.key bucket) (now + gap)).map Counter.count).getD 0 = 0 := by
      rw [habsent _ (by omega)]
      rfl
    have hfirst := inWindow_allow_iff limit window hzero
    rw [FixedWindows, calls, windows, List.forall₂_cons, or_iff_right (List.cons_ne_nil _ _),
      List.tail_cons]
    exact (and_congr_left fun _ ↦ hfirst).trans
      (and_congr_right fun hwhole ↦ forall₂_inWindow_iff gaps hwhole (hfirst.mpr hwhole).2)

/-- Two calls a minute apart. -/
theorem fixedWindows_iff_apart :
    FixedWindows ⟨truncating, "ratelimit:"⟩ "login" 5 (60 * second) (fun _ ↦ none) 0
      [0, 60000000000] :=
  (fixedWindows_iff _ _ _ _ _ _ _ fun _ _ ↦ rfl).mpr
    (.inr ⟨.inr (Dvd.intro_left _ rfl), by decide⟩)

/-- With a budget of two calls a minute, a call every 40 seconds is refused after 80 seconds,
although the first window closed after 60. -/
theorem not_fixedWindows_of_steady_caller :
    (calls ⟨truncating, "ratelimit:"⟩ "login" 2 (60 * second) (fun _ ↦ none) 0
        [0, 40000000000, 40000000000]).map (·.2.1) = [.ok (), .ok (), .error .limited] ∧
      ¬FixedWindows ⟨truncating, "ratelimit:"⟩ "login" 2 (60 * second) (fun _ ↦ none) 0
        [0, 40000000000, 40000000000] := by
  refine ⟨by decide, fun h ↦ ?_⟩
  cases h with | cons _ h => cases h with | cons _ h => cases h with | cons h _ =>
  exact absurd h.1 (by decide)

/-! ## The budget

That every call moves the end of its window keeps the budget all the same: calls that follow one
another within the time to live share one counter. -/

/-- How many of the calls were allowed. -/
def allowed (cs : List (ℤ × Except RateLimitError Unit × Store)) : ℕ := cs.countP (·.2.1.isOk)

private theorem allowed_cons {c : ℤ × Except RateLimitError Unit × Store}
    {cs : List (ℤ × Except RateLimitError Unit × Store)} {n : ℕ}
    (hc : c.2.1 = answer limit (k + 1)) (hcs : allowed cs = min n (limit - (k + 1 : ℕ)).toNat) :
    allowed (c :: cs) = min (n + 1) (limit - k).toNat := by
  rw [allowed, List.countP_cons, ← allowed, hcs, hc, answer]
  split_ifs with hlim hok
  · cases hok
  · omega
  · omega
  · exact absurd rfl ‹_›

/-- A call that is preceded by `k` in its window, and those that follow it before the counter
expires, are allowed as far as the rest of the budget goes. -/
theorem allowed_calls {gap : ℕ} {gaps : List ℕ}
    (hsum : gaps.sum < l.client.formatSec window * second)
    (hk : ((s.get (l.key bucket) (now + gap)).map Counter.count).getD 0 = k) :
    allowed (calls l bucket limit window s now (gap :: gaps)) =
      min (gaps.length + 1) (limit - k).toNat := by
  have hcall := inWindow_allow limit window hk
  refine allowed_cons hcall.1 ?_
  induction gaps generalizing s now k gap with
  | nil => exact (Nat.zero_min _).symm
  | cons gap' gaps ih =>
    rw [List.sum_cons] at hsum
    have hnext := hcall.2 (now + gap + gap') (by dsimp only; omega)
    rw [Window.openAt, if_pos (by dsimp only; omega)] at hnext
    have hcall' := inWindow_allow limit window (k := k + 1) (by rw [hnext]; rfl)
    exact allowed_cons hcall'.1 (ih (by omega) (by rw [hnext]; rfl) hcall')

/-- **The budget.** Whatever earlier calls have left in the store, no more than `limit` of the calls
within less than the time to live of the counter are allowed. -/
theorem allowed_le_limit (l : Limiter) (bucket : String) (limit window now : ℤ) (s : Store)
    (gaps : List ℕ) (hsum : gaps.tail.sum < l.client.formatSec window * second) :
    allowed (calls l bucket limit window s now gaps) ≤ limit.toNat := by
  cases gaps with
  | nil => exact Nat.zero_le _
  | cons gap gaps =>
    rw [List.tail_cons] at hsum
    rw [allowed_calls hsum rfl]
    omega

theorem allowed_le_limit_burst :
    allowed (calls ⟨truncating, "ratelimit:"⟩ "login" 2 (60 * second) (fun _ ↦ none) 0
      [0, 20000000000, 30000000000]) ≤ 2 :=
  allowed_le_limit _ _ _ _ _ _ _ (by decide)

/-- A reset gives the whole budget back. -/
theorem allowed_reset {gaps : List ℕ}
    (hsum : gaps.tail.sum < l.client.formatSec window * second) :
    allowed (calls l bucket limit window (l.reset bucket s) now gaps) =
      min gaps.length limit.toNat := by
  cases gaps with
  | nil => exact (Nat.zero_min _).symm
  | cons gap gaps =>
    have habsent : (l.reset bucket s).get (l.key bucket) (now + gap) = none := by
      rw [Store.get, Limiter.reset, update_self, Option.filter_none]
    rw [List.tail_cons] at hsum
    rw [allowed_calls (k := 0) hsum (by rw [habsent]; rfl), Nat.cast_zero, sub_zero,
      List.length_cons]

end FuelGrid.RateLimit
