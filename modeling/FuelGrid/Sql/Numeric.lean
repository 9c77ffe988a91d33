import Mathlib.Algebra.Order.Floor.Ring
import Mathlib.Algebra.Order.Ring.Rat
import Mathlib.Data.Rat.Floor
import Mathlib.Algebra.Order.AddGroupWithTop
import Mathlib.Tactic.Linarith
import Mathlib.Tactic.Ring

/-!
# Fixed-scale numerics

A `numeric(p, s)` column holds an integer number of units of `10⁻ˢ` with at most `p` digits, or
`NaN`. A value written to it is rounded to `s` decimals, ties away from zero, and is refused when
the rounded value needs more than `p` digits.
-/

namespace FuelGrid.Sql

/-! ## Rounding

The one subtle point is that rounding commutes with adding an integer except at ties: rounding away
from zero looks at the sign of its argument, so `n + x` and `x` round differently exactly when `x`
is half-way and adding `n` moves it across zero (`roundHalfAway_intCast_add_iff`). -/

/-- Round to the nearest integer, ties away from zero. -/
def roundHalfAway (x : ℚ) : ℤ :=
  if 0 ≤ x then ⌊x + 1 / 2⌋ else ⌈x - 1 / 2⌉

@[simp] theorem roundHalfAway_intCast (n : ℤ) : roundHalfAway n = n := by
  have hflo : ⌊(n : ℚ) + 1 / 2⌋ = n := by
    rw [Int.floor_intCast_add, add_eq_left]
    norm_num
  have hceil : ⌈(n : ℚ) - 1 / 2⌉ = n := by
    rw [Int.ceil_eq_iff]
    constructor <;> linarith
  unfold roundHalfAway
  split
  · exact hflo
  · exact hceil

theorem roundHalfAway_nonneg {x : ℚ} (hx : 0 ≤ x) : 0 ≤ roundHalfAway x := by
  rw [roundHalfAway, if_pos hx, Int.floor_nonneg]
  linarith

variable {n : ℤ} {p s : ℕ} {α : Type}

theorem roundHalfAway_le {x : ℚ} (hx : x ≤ n) : roundHalfAway x ≤ n := by
  unfold roundHalfAway
  split
  · rw [← Int.lt_add_one_iff, Int.floor_lt]
    push_cast
    linarith
  · rw [Int.ceil_le]
    linarith

private theorem le_roundHalfAway {x : ℚ} (hx : n ≤ x) : n ≤ roundHalfAway x := by
  unfold roundHalfAway
  split
  · rw [Int.le_floor]
    linarith
  · rw [← Int.sub_one_lt_iff, Int.lt_ceil]
    push_cast
    linarith

/-- The two roundings differ only at ties, where `⌊x + 1/2⌋` takes the upper neighbour. -/
theorem ceil_sub_half_eq (x : ℚ) :
    ⌈x - 1 / 2⌉ = if Int.fract x = 1 / 2 then ⌊x + 1 / 2⌋ - 1 else ⌊x + 1 / 2⌋ := by
  have hx : (⌊x⌋ : ℚ) + Int.fract x = x := Int.floor_add_fract x
  have hlo := Int.fract_nonneg x
  have hhi := Int.fract_lt_one x
  split
  next htie =>
    have hflo : ⌊x + 1 / 2⌋ = ⌊x⌋ + 1 := by
      rw [Int.floor_eq_iff]; push_cast; constructor <;> linarith
    rw [hflo, Int.ceil_eq_iff]
    push_cast
    constructor <;> linarith
  next htie =>
    rcases lt_or_gt_of_ne htie with hlt | hgt
    · have hflo : ⌊x + 1 / 2⌋ = ⌊x⌋ := by
        rw [Int.floor_eq_iff]; constructor <;> linarith
      rw [hflo, Int.ceil_eq_iff]
      constructor <;> linarith
    · have hflo : ⌊x + 1 / 2⌋ = ⌊x⌋ + 1 := by
        rw [Int.floor_eq_iff]; push_cast; constructor <;> linarith
      rw [hflo, Int.ceil_eq_iff]
      push_cast
      constructor <;> linarith

/-- Adding the integer `n` to `x` moves a tie across zero: `x` lies half-way between two integers,
and `x` and `n + x` are on different sides of zero. -/
def CrossesAtTie (n : ℤ) (x : ℚ) : Prop :=
  Int.fract x = 1 / 2 ∧ ¬(0 ≤ x ↔ 0 ≤ (n : ℚ) + x)
  deriving Decidable

/-- Rounding commutes with adding an integer exactly when no tie is moved across zero. -/
theorem roundHalfAway_intCast_add_iff (n : ℤ) (x : ℚ) :
    roundHalfAway (n + x) = n + roundHalfAway x ↔ ¬CrossesAtTie n x := by
  have hflo : ⌊(n : ℚ) + x + 1 / 2⌋ = n + ⌊x + 1 / 2⌋ := by
    rw [add_assoc, Int.floor_intCast_add]
  have hceil : ⌈(n : ℚ) + x - 1 / 2⌉ = n + ⌈x - 1 / 2⌉ := by
    rw [add_sub_assoc, Int.ceil_intCast_add]
  have hgap := ceil_sub_half_eq x
  unfold roundHalfAway CrossesAtTie
  rw [hflo, hceil]
  by_cases hx : 0 ≤ x <;> by_cases hnx : 0 ≤ (n : ℚ) + x <;>
    by_cases htie : Int.fract x = 1 / 2 <;>
    simp only [hx, hnx, htie, if_true, if_false] at hgap ⊢ <;> grind

/-! ## Columns -/

/-- Write a finite value to a `numeric(p, s)` column; `none` is the overflow error. -/
def store (p s : ℕ) (x : ℚ) : Option ℤ :=
  let units := roundHalfAway (x * 10 ^ s)
  if |units| < 10 ^ p then some units else none

theorem store_eq_some {x : ℚ} {u : ℤ} (h : store p s x = some u) :
    u = roundHalfAway (x * 10 ^ s) ∧ |u| < 10 ^ p := by
  simp only [store] at h
  split at h
  next hfit => cases h; exact ⟨rfl, hfit⟩
  · cases h

theorem store_units {x : ℚ} {u : ℤ} (hx : x * 10 ^ s = n) (h : store p s x = some u) : u = n := by
  rw [(store_eq_some h).1, hx, roundHalfAway_intCast]

theorem store_nonneg {x : ℚ} {u : ℤ} (hx : 0 ≤ x) (h : store p s x = some u) : 0 ≤ u := by
  rw [(store_eq_some h).1]
  exact roundHalfAway_nonneg (by positivity)

/-- A value that does not exceed a column is stored as one that does not. -/
theorem store_le {x : ℚ} {u : ℤ} (hx : x ≤ (n : ℚ) / 10 ^ s) (h : store p s x = some u) :
    u ≤ n := by
  rw [(store_eq_some h).1]
  exact roundHalfAway_le ((le_div_iff₀ (by positivity)).mp hx)

theorem le_store {x : ℚ} {u : ℤ} (hx : (n : ℚ) / 10 ^ s ≤ x) (h : store p s x = some u) :
    n ≤ u := by
  rw [(store_eq_some h).1]
  exact le_roundHalfAway ((div_le_iff₀ (by positivity)).mp hx)

theorem abs_lt_of_store {x : ℚ} {u : ℤ} (h : store p s x = some u) : |x * 10 ^ s| < 10 ^ p := by
  obtain ⟨rfl, hfit⟩ := store_eq_some h
  rw [abs_lt] at hfit ⊢
  constructor
  · by_contra hle
    have : roundHalfAway (x * 10 ^ s) ≤ -10 ^ p :=
      roundHalfAway_le (by push_cast; exact not_lt.mp hle)
    omega
  · by_contra hle
    have : 10 ^ p ≤ roundHalfAway (x * 10 ^ s) :=
      le_roundHalfAway (by push_cast; exact not_lt.mp hle)
    omega

/-! ## Values

Finite columns are modelled by their units in `ℤ`. Columns that a caller can reach with a `NaN` are
modelled by `WithTop ℤ`: `NaN` is the top element, it equals itself, it is greater than every
number, and it absorbs in sums and negation, which are the comparison and arithmetic rules of the
type. -/

/-- A `numeric(14,2)` column, in cents; `⊤` is `NaN`. -/
abbrev Money := WithTop ℤ

/-- The order of columns with `NaN`, fixed here so that comparing two columns computes. -/
instance columnPreorder : Preorder (WithTop ℤ) := (WithTop.linearOrder (α := ℤ)).toPreorder

theorem sum_map_neg (f : α → WithTop ℤ) (rows : List α) :
    (rows.map fun r ↦ -f r).sum = -(rows.map f).sum := by
  induction rows with
  | nil => exact neg_zero.symm
  | cons r rows ih =>
    rw [List.map_cons, List.sum_cons, ih, List.map_cons, List.sum_cons, neg_add_rev, add_comm]

theorem sum_map_sub (f g : α → WithTop ℤ) (rows : List α) :
    (rows.map fun r ↦ f r - g r).sum = (rows.map f).sum - (rows.map g).sum := by
  simp only [sub_eq_add_neg]
  rw [← sum_map_neg, ← List.sum_map_add]

theorem sum_map_ne_top {f : α → WithTop ℤ} {rows : List α} :
    (rows.map f).sum ≠ ⊤ ↔ ∀ r ∈ rows, f r ≠ ⊤ := by
  induction rows with
  | nil => simp
  | cons r rows ih =>
    rw [List.map_cons, List.sum_cons, WithTop.add_ne_top, ih, List.forall_mem_cons]

/-- `NaN` absorbs what is added to it; nothing else does. -/
theorem add_eq_left_iff {x y : WithTop ℤ} : x + y = x ↔ x = ⊤ ∨ y = 0 := by
  induction x with
  | top => simp
  | coe x =>
    induction y with
    | top => simp
    | coe y =>
      norm_cast
      simp

/-- A value of the type `numeric`, such as a text cast to it. -/
inductive Numeric where
  | nan
  | infinity (negative : Bool)
  | finite (x : ℚ)
  deriving DecidableEq

namespace Numeric

/-- The value of a column of scale `s`. -/
def ofUnits (s : ℕ) : WithTop ℤ → Numeric
  | ⊤ => .nan
  | (n : ℤ) => .finite ((n : ℚ) / 10 ^ s)

/-- Write a value to a `numeric(p, s)` column. The column takes `NaN` and refuses infinities. -/
def store (p s : ℕ) : Numeric → Option (WithTop ℤ)
  | .nan => some ⊤
  | .infinity _ => none
  | .finite x => (Sql.store p s x).map (↑)

def add : Numeric → Numeric → Numeric
  | .nan, _ => .nan
  | _, .nan => .nan
  | .infinity a, .infinity b => if a = b then .infinity a else .nan
  | .infinity a, .finite _ => .infinity a
  | .finite _, .infinity b => .infinity b
  | .finite x, .finite y => .finite (x + y)

instance : Add Numeric := ⟨add⟩

def neg : Numeric → Numeric
  | .nan => .nan
  | .infinity a => .infinity !a
  | .finite x => .finite (-x)

instance : Neg Numeric := ⟨neg⟩

/-- The order of the type: `-Infinity`, the numbers, `Infinity`, `NaN`. -/
def Le : Numeric → Numeric → Prop
  | _, .nan => True
  | .nan, _ => False
  | .infinity true, _ => True
  | _, .infinity b => b = false
  | .infinity false, .finite _ => False
  | .finite x, .finite y => x ≤ y

instance : LE Numeric := ⟨Le⟩

instance (x y : Numeric) : Decidable (x ≤ y) :=
  match x, y with
  | .nan, .nan | .infinity true, .nan | .infinity false, .nan | .finite _, .nan => .isTrue trivial
  | .nan, .infinity _ | .nan, .finite _ => .isFalse id
  | .infinity true, .infinity _ | .infinity true, .finite _ => .isTrue trivial
  | .infinity false, .infinity b => inferInstanceAs (Decidable (b = false))
  | .finite _, .infinity b => inferInstanceAs (Decidable (b = false))
  | .infinity false, .finite _ => .isFalse id
  | .finite x, .finite y => inferInstanceAs (Decidable (x ≤ y))

variable {x : Numeric} {u a b v : WithTop ℤ}

protected theorem le_trans {y z : Numeric} (h : x ≤ y) (h' : y ≤ z) : x ≤ z := by
  change Le x z
  have h : Le x y := h
  have h' : Le y z := h'
  rcases x with _ | (_ | _) | x <;> rcases y with _ | (_ | _) | y <;>
    rcases z with _ | (_ | _) | z <;>
    simp_all only [Le, reduceCtorEq]
  exact le_trans h h'

theorem ofUnits_add (s : ℕ) (a b : WithTop ℤ) :
    ofUnits s a + ofUnits s b = ofUnits s (a + b) := by
  induction a with
  | top => rfl
  | coe a =>
    induction b with
    | top => rfl
    | coe b =>
      change Numeric.finite ((a : ℚ) / 10 ^ s + (b : ℚ) / 10 ^ s) = .finite (((a + b : ℤ) : ℚ) / _)
      rw [Int.cast_add, add_div]

theorem ofUnits_neg (s : ℕ) (a : WithTop ℤ) : -ofUnits s a = ofUnits s (-a) := by
  induction a with
  | top => rfl
  | coe a =>
    change Numeric.finite (-((a : ℚ) / 10 ^ s)) = .finite (((-a : ℤ) : ℚ) / _)
    rw [Int.cast_neg, neg_div]

theorem ofUnits_zero (s : ℕ) : ofUnits s 0 = .finite 0 := by
  change Numeric.finite (((0 : ℤ) : ℚ) / 10 ^ s) = _
  rw [Int.cast_zero, zero_div]

theorem ofUnits_le_ofUnits : ofUnits s a ≤ ofUnits s b ↔ a ≤ b := by
  induction b with
  | top => exact iff_of_true (by cases a <;> trivial) le_top
  | coe b =>
    induction a with
    | top => exact iff_of_false id (not_le_of_gt (WithTop.coe_lt_top b))
    | coe a =>
      rw [WithTop.coe_le_coe]
      change (a : ℚ) / 10 ^ s ≤ (b : ℚ) / 10 ^ s ↔ _
      rw [div_le_div_iff_of_pos_right (by positivity), Int.cast_le]

private theorem le_ofUnits_top : x ≤ ofUnits s ⊤ := by cases x <;> trivial

/-- What a limit leaves above a column is enough for the value. Above `NaN` there is room for
all. -/
theorem le_ofUnits_sub_iff : x ≤ ofUnits s (a - b) ↔ b = ⊤ ∨ ofUnits s b + x ≤ ofUnits s a := by
  induction b with
  | top => simpa using le_ofUnits_top
  | coe b =>
    rw [or_iff_right WithTop.coe_ne_top]
    induction a with
    | top => exact iff_of_true le_ofUnits_top le_ofUnits_top
    | coe a =>
      rcases x with _ | neg | q
      · exact Iff.rfl
      · cases neg <;> exact Iff.rfl
      · change q ≤ ((a - b : ℤ) : ℚ) / 10 ^ s ↔ (b : ℚ) / 10 ^ s + q ≤ (a : ℚ) / 10 ^ s
        rw [Int.cast_sub, sub_div, le_sub_iff_add_le, add_comm]

theorem nan_le_ofUnits_iff : nan ≤ ofUnits s a ↔ a = ⊤ := by
  induction a with
  | top => exact iff_of_true trivial rfl
  | coe a => exact iff_of_false id WithTop.coe_ne_top

/-- Written to a column of scale `s` the value loses no digits. `NaN` has none, and an infinity is
not written. -/
def Whole (s : ℕ) : Numeric → Prop
  | .nan => True
  | .infinity _ => True
  | .finite x => (roundHalfAway (x * 10 ^ s) : ℚ) = x * 10 ^ s

instance (s : ℕ) : DecidablePred (Whole s)
  | .nan => .isTrue trivial
  | .infinity _ => .isTrue trivial
  | .finite x => inferInstanceAs (Decidable ((roundHalfAway (x * 10 ^ s) : ℚ) = x * 10 ^ s))

/-- A stored value is finite unless it was written as `NaN`. -/
theorem store_eq_some (hx : x ≠ .nan) (h : x.store p s = some u) :
    ∃ q v, x = .finite q ∧ Sql.store p s q = some v ∧ u = v := by
  cases x with
  | nan => exact absurd rfl hx
  | infinity b => cases h
  | finite q =>
    obtain ⟨v, hv, rfl⟩ := Option.map_eq_some_iff.mp h
    exact ⟨q, v, rfl, hv, rfl⟩

theorem store_ofUnits (h : (ofUnits s u).store p s = some v) : v = u := by
  induction u with
  | top => exact (Option.some.inj h).symm
  | coe n =>
    obtain ⟨w, hw, rfl⟩ := Option.map_eq_some_iff.mp h
    have huni : ((n : ℚ) / 10 ^ s) * 10 ^ s = n := div_mul_cancel₀ _ (by positivity)
    rw [store_units huni hw]

/-- A whole value is the one that the column then has. -/
theorem Whole.eq_ofUnits (hx : x.Whole s) (h : x.store p s = some u) : x = ofUnits s u := by
  rcases x with _ | b | q
  · rw [← Option.some.inj h]
    rfl
  · cases h
  · obtain ⟨v, hv, rfl⟩ := Option.map_eq_some_iff.mp h
    have hq : (v : ℚ) = q * 10 ^ s := by rw [(Sql.store_eq_some hv).1]; exact hx
    change Numeric.finite q = .finite ((v : ℚ) / 10 ^ s)
    rw [hq, mul_div_cancel_right₀ _ (by positivity)]

theorem Whole.neg (hx : x.Whole s) : (-x).Whole s := by
  rcases x with _ | b | q
  · trivial
  · trivial
  · have hq : (roundHalfAway (q * 10 ^ s) : ℚ) = q * 10 ^ s := hx
    change (roundHalfAway (-q * 10 ^ s) : ℚ) = -q * 10 ^ s
    rw [neg_mul, ← hq, ← Int.cast_neg, roundHalfAway_intCast]

/-- A whole value is added to a column as it is stored. -/
theorem Whole.store_add (hx : x.Whole s) (hu : x.store p s = some u)
    (hv : (ofUnits s b + x).store p s = some v) : v = b + u := by
  rw [hx.eq_ofUnits hu, ofUnits_add] at hv
  exact store_ofUnits hv

/-- Comparing a value with a column before it is rounded compares it afterwards. -/
theorem store_le {y : WithTop ℤ} (hle : x ≤ ofUnits s y) (h : x.store p s = some u) : u ≤ y := by
  induction y with
  | top => exact le_top
  | coe m =>
    by_cases hx : x = .nan
    · rw [hx] at hle
      exact hle.elim
    · obtain ⟨q, v, rfl, hv, rfl⟩ := store_eq_some hx h
      exact WithTop.coe_le_coe.mpr (Sql.store_le hle hv)

/-- The same for a value added to a column, below a finite bound. -/
theorem add_store_le {m : ℤ} (hle : ofUnits s a + x ≤ ofUnits s m) (h : x.store p s = some u) :
    a + u ≤ m := by
  induction a with
  | top => exact hle.elim
  | coe n =>
    by_cases hx : x = .nan
    · rw [hx] at hle
      exact hle.elim
    · obtain ⟨q, v, rfl, hv, rfl⟩ := store_eq_some hx h
      have hq : q ≤ ((m - n : ℤ) : ℚ) / 10 ^ s := by
        have hle' : (n : ℚ) / 10 ^ s + q ≤ (m : ℚ) / 10 ^ s := hle
        rw [Int.cast_sub, sub_div]
        linarith
      have hv' := Sql.store_le hq hv
      have hsum : n + v ≤ m := by omega
      exact_mod_cast hsum

end Numeric

export Numeric (ofUnits ofUnits_add ofUnits_le_ofUnits ofUnits_neg ofUnits_zero store_ofUnits)

end FuelGrid.Sql
