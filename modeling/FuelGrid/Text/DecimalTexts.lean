import FuelGrid.Sql.Rows
import FuelGrid.Text.Decimals
import Mathlib.Data.List.DropRight
import Mathlib.Tactic.Positivity

/-!
# The negation of a decimal text

`ReverseMovement` writes the litres of a contra entry with `negateDecimal`, which trims character
sets and parses nothing. It is exact on decimals of any length, in every spelling of zero.
-/

namespace FuelGrid.Text

/-- Without the characters of a kind at both ends. -/
def trim (p : Char → Bool) (s : List Char) : List Char := (s.dropWhile p).rdropWhile p

/-- What stands before the point. -/
def whole (s : List Char) : List Char := s.takeWhile (· ≠ '.')

/-- What stands after the point. -/
def fraction (s : List Char) : List Char := (s.dropWhile (· ≠ '.')).tail

/-- `^(\d+(\.\d*)?|\.\d+)$` -/
def isDecimal (s : List Char) : Bool :=
  (whole s ++ fraction s).all Char.isDigit && whole s ++ fraction s ≠ []

/-- The number that a decimal without a sign denotes. -/
def magnitude (s : List Char) : ℚ :=
  Nat.ofDigitChars 10 (whole s ++ fraction s) 0 / 10 ^ (fraction s).length

/-- The number that a decimal denotes. -/
def value (s : List Char) : ℚ := signed (readSign s).1 (magnitude (readSign s).2)

/-- The spaces of Unicode, and one character on which Go and JavaScript differ. -/
def isBlank (extra : ℕ) (c : Char) : Bool :=
  c.toNat ∈ [extra, 9, 10, 11, 12, 13, 32, 0xa0, 0x1680, 0x2028, 0x2029, 0x202f, 0x205f, 0x3000] ||
    (0x2000 ≤ c.toNat && c.toNat ≤ 0x200a)

/-- `strings.TrimPrefix(s, "-")` -/
def dropMinus (s : List Char) : List Char := if s.head? = some '-' then s.tail else s

def negateDecimal (s : List Char) : List Char :=
  let s := trim (isBlank 0x85) s
  if s = [] then s
  else if (dropMinus s).dropWhile (· ∈ ['0', '.']) = [] then dropMinus s
  else if s.head? = some '-' then s.tail
  else '-' :: s

/-- A decimal with an optional minus. -/
abbrev DecimalText := { s : List Char // isDecimal (dropMinus s) }

variable {s : List Char} {p : Char → Bool} {c : Char}

theorem trim_eq_self (h : ∀ c ∈ s, p c = false) : trim p s = s := by
  rw [trim, List.dropWhile_eq_self_iff.mpr, List.rdropWhile_eq_self_iff.mpr]
  · exact fun hne ↦ by simp [h]
  · exact fun hlt ↦ by simp [h]

private theorem whole_cons (h : c ≠ '.') : whole (c :: s) = c :: whole s := by
  simp [whole, h]

private theorem fraction_cons (h : c ≠ '.') : fraction (c :: s) = fraction s := by
  simp [fraction, h]

private theorem mem_iff_of_ne (h : c ≠ '.') : c ∈ s ↔ c ∈ whole s ++ fraction s := by
  induction s with
  | nil => rfl
  | cons d s ih =>
    by_cases hd : d = '.'
    · simp [whole, fraction, hd, h]
    · rw [whole_cons hd, fraction_cons hd, List.cons_append, mem_cons, mem_cons, ih]

theorem isDigit_of_isDecimal (h : isDecimal s) : ∀ c ∈ whole s ++ fraction s, c.isDigit :=
  List.all_eq_true.mp (Bool.and_eq_true_iff.mp h).1

private theorem ofDigitChars_eq_zero {ds : List Char} (h : ∀ c ∈ ds, c.isDigit) :
    Nat.ofDigitChars 10 ds 0 = 0 ↔ ∀ c ∈ ds, c = '0' := by
  induction ds with
  | nil => simp
  | cons d ds ih =>
    obtain ⟨hd, hds⟩ := forall_mem_cons.mp h
    have hz : d.toNat - '0'.toNat = 0 ↔ d = '0' := by
      have := Char.isDigit_iff_toNat.mp hd
      rw [← Char.toNat_inj]
      omega
    rw [Nat.ofDigitChars_cons, Nat.ofDigitChars_eq_ofDigitChars_zero, forall_mem_cons,
      ← ih hds, ← hz]
    simp

theorem isDigit_or_point (h : isDecimal s) (hc : c ∈ s) : c.isDigit ∨ c = '.' := by
  by_cases hne : c = '.'
  · exact .inr hne
  · exact .inl (isDigit_of_isDecimal h c ((mem_iff_of_ne hne).mp hc))

/-- A decimal is trimmed to nothing exactly if it denotes zero. -/
theorem dropWhile_eq_nil_iff_magnitude (h : isDecimal s) :
    s.dropWhile (· ∈ ['0', '.']) = [] ↔ magnitude s = 0 := by
  have hpow : (10 : ℚ) ^ (fraction s).length ≠ 0 := by positivity
  rw [magnitude, div_eq_zero_iff, or_iff_left hpow, Nat.cast_eq_zero,
    ofDigitChars_eq_zero (isDigit_of_isDecimal h), List.dropWhile_eq_nil_iff]
  constructor
  · intro hs c hc
    have hdigit := isDigit_of_isDecimal h c hc
    have hne : c ≠ '.' := by
      rintro rfl
      cases hdigit
    simpa [hne] using hs c ((mem_iff_of_ne hne).mpr hc)
  · intro hs c hc
    by_cases hne : c = '.'
    · simp [hne]
    · simp [hs c ((mem_iff_of_ne hne).mp hc)]

private theorem readSign_of_isDecimal (h : isDecimal s) : readSign s = (false, s) := by
  unfold readSign
  split
  next s => exact absurd (isDigit_or_point h mem_cons_self) (by decide)
  next s => exact absurd (isDigit_or_point h mem_cons_self) (by decide)
  · rfl

theorem value_of_isDecimal (h : isDecimal s) : value s = magnitude s := by
  rw [value, readSign_of_isDecimal h, signed]
  rfl

private theorem value_minus (s : List Char) : value ('-' :: s) = -magnitude s := rfl

theorem isBlank_eq_false {extra : ℕ} (hextra : 58 ≤ extra) (hc : c.isDigit ∨ c = '.' ∨ c = '-') :
    isBlank extra c = false := by
  have hc : 45 ≤ c.toNat ∧ c.toNat < 58 := by
    rcases hc with hc | rfl | rfl
    · have := Char.isDigit_iff_toNat.mp hc
      exact ⟨le_trans (by decide) this.1, Nat.lt_succ_of_le this.2⟩
    · decide
    · decide
  simp [isBlank]
  omega

theorem head?_ne_minus (h : isDecimal s) : s.head? ≠ some '-' := fun hhead ↦
  absurd (isDigit_or_point h (List.mem_of_head? hhead)) (by decide)

private theorem dropMinus_eq_self (h : isDecimal s) : dropMinus s = s := if_neg (head?_ne_minus h)

/-- A text is negated by putting a minus in front or taking it away, and zero has none. -/
theorem negateDecimal_eq (h : isDecimal s) :
    negateDecimal s = (if magnitude s = 0 then s else '-' :: s) ∧ negateDecimal ('-' :: s) = s := by
  have hblank : ∀ c ∈ '-' :: s, isBlank 0x85 c = false := fun c hc ↦ by
    refine isBlank_eq_false (by decide) ?_
    rcases mem_cons.mp hc with rfl | hc
    · exact .inr (.inr rfl)
    · exact (isDigit_or_point h hc).imp_right .inl
  have hnil : s ≠ [] := by
    rintro rfl
    cases h
  rw [negateDecimal, negateDecimal, trim_eq_self hblank,
    trim_eq_self fun c hc ↦ hblank c (mem_cons_of_mem _ hc)]
  constructor
  · simp only [dropMinus_eq_self h, hnil, dropWhile_eq_nil_iff_magnitude h,
      head?_ne_minus h, if_false]
  · simp only [reduceCtorEq, dropMinus, List.head?_cons, List.tail_cons, if_true,
      if_false, ite_self]

/-- The negation of a decimal. -/
theorem negateDecimal_spec (s : DecimalText) :
    isDecimal (dropMinus (negateDecimal s)) ∧ value (negateDecimal s) = -value s ∧
      value (negateDecimal (negateDecimal s)) = value s ∧
      (fraction (negateDecimal s)).length = (fraction s).length ∧
      (value (negateDecimal s) = 0 → (negateDecimal s).head? ≠ some '-') := by
  obtain ⟨s, h⟩ := s
  -- the text is a decimal `u` or `u` with a minus
  obtain ⟨u, hu, rfl | rfl⟩ : ∃ u, isDecimal u ∧ (s = u ∨ s = '-' :: u) := by
    refine ⟨dropMinus s, h, ?_⟩
    unfold dropMinus
    split
    next hhead => exact .inr (List.cons_head?_tail hhead).symm
    · exact .inl rfl
  · obtain ⟨hplain, hminus⟩ := negateDecimal_eq hu
    by_cases hz : magnitude s = 0
    · rw [if_pos hz] at hplain
      rw [hplain, hplain, dropMinus_eq_self hu, value_of_isDecimal hu, hz, neg_zero]
      exact ⟨hu, rfl, rfl, rfl, fun _ ↦ head?_ne_minus hu⟩
    · rw [if_neg hz] at hplain
      rw [hplain, hminus, value_minus, value_of_isDecimal hu,
        fraction_cons (by decide), neg_eq_zero]
      exact ⟨hu, rfl, rfl, rfl, fun h0 ↦ absurd h0 hz⟩
  · obtain ⟨hplain, hminus⟩ := negateDecimal_eq hu
    rw [hminus, dropMinus_eq_self hu, value_minus, neg_neg,
      value_of_isDecimal hu, fraction_cons (by decide)]
    refine ⟨hu, rfl, ?_, rfl, fun _ ↦ head?_ne_minus hu⟩
    rw [hplain]
    split
    next hz => rw [value_of_isDecimal hu, hz, neg_zero]
    · rfl

end FuelGrid.Text
