import FuelGrid.Text.DecimalTexts
import Mathlib.Tactic.FieldSimp

/-!
# Meter decimals

`meter-decimal.ts` compares, adds, subtracts and multiplies readings as scaled integers and renders
the result as a text, without its last zeros. The arithmetic is exact on decimals of any length, and
the text depends on the number only.
-/

namespace FuelGrid.Meter

open Text

/-- `String.prototype.trim` -/
def jsTrim (s : List Char) : List Char := trim (isBlank 0xfeff) s

def isMeterDecimal (value : List Char) : Bool := isDecimal (jsTrim value)

/-- The digits before and after the point. -/
def parts (value : List Char) : List Char × List Char :=
  let t := jsTrim value
  (if whole t = [] then ['0'] else whole t, whole (fraction t))

/-- `BigInt` of digits. -/
def bigInt (digits : List Char) : ℕ := Nat.ofDigitChars 10 digits 0

/-- Both decimals as integers, and their common scale. -/
def scaled (a b : List Char) : ℕ × ℕ × ℕ :=
  let scale := max (parts a).2.length (parts b).2.length
  (bigInt ((parts a).1 ++ (parts a).2.rightpad scale '0'),
    bigInt ((parts b).1 ++ (parts b).2.rightpad scale '0'), scale)

def compareMeterDecimals (a b : List Char) : ℤ :=
  let (ia, ib, _) := scaled a b
  if ia < ib then -1 else if ib < ia then 1 else 0

/-- Without a scale there is nothing after the point. -/
def fromScaled (value scale : ℕ) : List Char :=
  let digits := (Nat.toDigits 10 value).leftpad (scale + 1) '0'
  let int := digits.take (digits.length - scale)
  let frac := (digits.drop (digits.length - scale)).rdropWhile (· = '0')
  (if int = [] then ['0'] else int) ++ if frac = [] then [] else '.' :: frac

/-- The source repeats the lines of `fromScaled`. -/
def subtractMeterDecimals (a b : List Char) : List Char :=
  let (ia, ib, scale) := scaled a b
  let diff : ℤ := ia - ib
  (if diff < 0 then ['-'] else []) ++ fromScaled diff.natAbs scale

def addMeterDecimals (a b : List Char) : List Char :=
  let (ia, ib, scale) := scaled a b
  fromScaled (ia + ib) scale

def multiplyMeterDecimal (value : List Char) (factor : ℚ) : Except String (List Char) :=
  if factor.den ≠ 1 ∨ factor < 0 then
    .error "multiplyMeterDecimal: factor must be a non-negative integer"
  else
    let (int, frac) := parts value
    .ok (fromScaled (bigInt (int ++ frac) * factor.num.toNat) frac.length)

abbrev MeterDecimal := { s : List Char // isMeterDecimal s }

/-- The number that an accepted text denotes. -/
def MeterDecimal.val (a : MeterDecimal) : ℚ := value (jsTrim a)

/-- The text is what `isMeterDecimal` accepts, denotes `q` and has no zeros at the end. -/
structure Denotes (s : List Char) (q : ℚ) : Prop where
  accepted : isMeterDecimal s
  value : value s = q
  trimmed : (fraction s).getLast? ≠ some '0'

/-- What the helpers promise. -/
structure MeterLaw (a b : MeterDecimal) (k : ℕ) : Prop where
  compare : compareMeterDecimals a b = if a.val < b.val then -1 else if b.val < a.val then 1 else 0
  add : Denotes (addMeterDecimals a b) (a.val + b.val)
  multiply : ∃ s, multiplyMeterDecimal a k = .ok s ∧ Denotes s (a.val * k)
  subtract : value (subtractMeterDecimals a b) = a.val - b.val
  nonneg : 0 ≤ a.val - b.val → Denotes (subtractMeterDecimals a b) (a.val - b.val)
  zero : value (subtractMeterDecimals a b) = 0 → (subtractMeterDecimals a b).head? ≠ some '-'
  congr : ∀ a' b' : MeterDecimal, compareMeterDecimals a a' = 0 → compareMeterDecimals b b' = 0 →
    addMeterDecimals a b = addMeterDecimals a' b' ∧
      subtractMeterDecimals a b = subtractMeterDecimals a' b' ∧
      multiplyMeterDecimal a k = multiplyMeterDecimal a' k

/-! ## Rendering -/

/-- The text of a number. -/
def Renders (t : List Char) (q : ℚ) : Prop := ∃ v s : ℕ, t = fromScaled v s ∧ (v : ℚ) / 10 ^ s = q

variable {t t' : List Char} {q : ℚ}

private theorem leftpad_shift (v s : ℕ) : (Nat.toDigits 10 (v * 10)).leftpad (s + 2) '0' =
    (Nat.toDigits 10 v).leftpad (s + 1) '0' ++ ['0'] := by
  rcases Nat.eq_zero_or_pos v with rfl | hv
  · simp [List.leftpad, List.replicate_succ']
  · rw [Nat.toDigits_of_base_le (by decide) (by omega), Nat.mul_div_cancel _ (by decide),
      Nat.mul_mod_left]
    simp [List.leftpad]

private theorem fromScaled_shift (v s k : ℕ) :
    fromScaled (v * 10 ^ k) (s + k) = fromScaled v s := by
  induction k with
  | zero => rw [pow_zero, mul_one, Nat.add_zero]
  | succ k ih =>
    rw [← ih, pow_succ, ← mul_assoc, ← Nat.add_assoc]
    have hle := Nat.sub_le ((Nat.toDigits 10 (v * 10 ^ k)).leftpad (s + k + 1) '0').length (s + k)
    simp only [fromScaled, leftpad_shift, List.length_append,
      List.length_singleton, Nat.add_sub_add_right,
      List.take_append_of_le_length hle, List.drop_append_of_le_length hle]
    rw [List.rdropWhile_concat_pos _ _ _ (by decide)]

theorem Renders.unique (h : Renders t q) (h' : Renders t' q) : t = t' := by
  obtain ⟨v, s, rfl, rfl⟩ := h
  obtain ⟨v', s', rfl, h⟩ := h'
  rw [div_eq_div_iff (by positivity) (by positivity)] at h
  have h : v' * 10 ^ s = v * 10 ^ s' := by exact_mod_cast h
  rw [← fromScaled_shift v s s', ← h, Nat.add_comm, fromScaled_shift]

private theorem bigInt_append_zeros (l : List Char) (k : ℕ) :
    bigInt (l ++ List.replicate k '0') = 10 ^ k * bigInt l := by
  rw [bigInt, Nat.ofDigitChars_append, Nat.ofDigitChars_replicate_zero]
  rfl

private theorem bigInt_zeros_append (l : List Char) (k : ℕ) :
    bigInt (List.replicate k '0' ++ l) = bigInt l := by
  rw [bigInt, Nat.ofDigitChars_append, Nat.ofDigitChars_replicate_zero, mul_zero]
  rfl

/-- The text of a scaled integer holds all its digits but the zeros at the end. -/
theorem fromScaled_eq (v s : ℕ) : ∃ int frac k,
    fromScaled v s = int ++ (if frac = [] then [] else '.' :: frac) ∧ int ≠ [] ∧
      int ++ frac ++ List.replicate k '0' = (Nat.toDigits 10 v).leftpad (s + 1) '0' ∧
      frac.length + k = s ∧ frac.getLast? ≠ some '0' := by
  have hlen : s < ((Nat.toDigits 10 v).leftpad (s + 1) '0').length := by
    rw [List.length_leftpad]
    omega
  unfold fromScaled
  generalize (Nat.toDigits 10 v).leftpad (s + 1) '0' = ds at *
  obtain ⟨n, hn⟩ : ∃ n, ds.length - s = n := ⟨_, rfl⟩
  have hint : ds.take n ≠ [] := by
    rw [← List.length_pos_iff, List.length_take]
    omega
  have hdrop : (ds.drop n).rdropWhile (· = '0') ++ (ds.drop n).rtakeWhile (· = '0') = ds.drop n :=
    List.rdropWhile_append_rtakeWhile
  refine ⟨ds.take n, (ds.drop n).rdropWhile (· = '0'), ((ds.drop n).rtakeWhile (· = '0')).length,
    by simp only [hn, if_neg hint], hint, ?_, ?_, fun h ↦ ?_⟩
  · rw [← List.eq_replicate_of_mem fun c hc ↦ by simpa using List.mem_rtakeWhile_imp hc,
      append_assoc, hdrop,
      List.take_append_drop]
  · rw [← List.length_append, hdrop, List.length_drop]
    omega
  · obtain ⟨hne, h⟩ := List.mem_getLast?_eq_getLast h
    exact List.rdropWhile_last_not _ _ hne (decide_eq_true h.symm)

theorem Renders.spec (h : Renders t q) :
    isDecimal t ∧ magnitude t = q ∧ (fraction t).getLast? ≠ some '0' := by
  obtain ⟨v, s, rfl, rfl⟩ := h
  obtain ⟨int, frac, k, htext, hint, hds, rfl, hlast⟩ := fromScaled_eq v s
  have hdigit : ∀ c ∈ int ++ frac, c.isDigit := fun c hc ↦ by
    have hc : c ∈ (Nat.toDigits 10 v).leftpad _ '0' := hds ▸ mem_append_left _ hc
    rcases mem_append.mp hc with hc | hc
    · rw [List.eq_of_mem_replicate hc]
      rfl
    · exact Nat.isDigit_of_mem_toDigits (by decide) (by decide) hc
  have hv : 10 ^ k * bigInt (int ++ frac) = v := by
    rw [← bigInt_append_zeros, hds, List.leftpad, bigInt_zeros_append]
    exact Nat.ofDigitChars_toDigits (by decide) (by decide)
  have hpoint : ∀ c ∈ int, decide (c ≠ '.') = true := fun c hc ↦ decide_eq_true fun h ↦
    absurd (hdigit c (mem_append_left _ hc)) (h ▸ by decide)
  obtain ⟨hwh, hfrac⟩ : whole (fromScaled v (frac.length + k)) = int ∧
      fraction (fromScaled v (frac.length + k)) = frac := by
    rw [htext, whole, fraction, List.takeWhile_append_of_pos hpoint,
      List.dropWhile_append_of_pos hpoint]
    split
    next h => simp [h]
    · simp
  refine ⟨?_, ?_, hfrac.symm ▸ hlast⟩
  · rw [isDecimal, hwh, hfrac, List.all_eq_true.mpr hdigit]
    simp [hint]
  · rw [magnitude, hwh, hfrac, pow_add, ← hv, bigInt]
    push_cast
    field_simp

theorem Renders.denotes (h : Renders t q) : Denotes t q := by
  obtain ⟨hdec, hmag, hlast⟩ := h.spec
  refine ⟨?_, (value_of_isDecimal hdec).trans hmag, hlast⟩
  rwa [isMeterDecimal, jsTrim, trim_eq_self fun c hc ↦ isBlank_eq_false (by decide)
    ((isDigit_or_point hdec hc).imp_right .inl)]

/-! ## Reading -/

private theorem bigInt_rightpad (int : List Char) {frac : List Char} {scale : ℕ}
    (h : frac.length ≤ scale) :
    (bigInt (int ++ frac.rightpad scale '0') : ℚ) / 10 ^ scale =
      bigInt (int ++ frac) / 10 ^ frac.length := by
  obtain ⟨k, rfl⟩ := Nat.exists_eq_add_of_le h
  rw [List.rightpad, ← append_assoc, bigInt_append_zeros, Nat.add_sub_cancel_left, pow_add]
  push_cast
  field_simp

private theorem parts_div (a : MeterDecimal) :
    (bigInt ((parts a).1 ++ (parts a).2) : ℚ) / 10 ^ (parts a).2.length = a.val := by
  obtain ⟨a, ha⟩ := a
  have hfrac : whole (fraction (jsTrim a)) = fraction (jsTrim a) := by
    refine List.takeWhile_eq_self_iff.mpr fun c hc ↦ decide_eq_true fun h ↦ ?_
    exact absurd (isDigit_of_isDecimal ha c (mem_append_right _ hc)) (h ▸ by decide)
  rw [MeterDecimal.val, value_of_isDecimal ha, magnitude, parts, hfrac]
  dsimp only
  split
  next h =>
    rw [h]
    exact congrArg (fun n : ℕ ↦ (n : ℚ) / _) (bigInt_zeros_append _ 1)
  · rfl

private theorem scaled_div (a b : MeterDecimal) :
    ((scaled a b).1 : ℚ) / 10 ^ (scaled a b).2.2 = a.val ∧
      ((scaled a b).2.1 : ℚ) / 10 ^ (scaled a b).2.2 = b.val := by
  rw [← parts_div, ← parts_div]
  exact ⟨bigInt_rightpad _ (le_max_left ..), bigInt_rightpad _ (le_max_right ..)⟩

private theorem compareMeterDecimals_eq (a b : MeterDecimal) :
    compareMeterDecimals a b = if a.val < b.val then -1 else if b.val < a.val then 1 else 0 := by
  have hpow : (0 : ℚ) < 10 ^ (scaled a b).2.2 := by positivity
  obtain ⟨ha, hb⟩ := scaled_div a b
  simp only [compareMeterDecimals, ← ha, ← hb, div_lt_div_iff_of_pos_right hpow, Nat.cast_lt]

private theorem val_eq_of_compare {a b : MeterDecimal} (h : compareMeterDecimals a b = 0) :
    a.val = b.val := by
  rw [compareMeterDecimals_eq] at h
  split at h
  · cases h
  next hlt =>
    split at h
    · cases h
    next hgt => exact le_antisymm (not_lt.mp hgt) (not_lt.mp hlt)

private theorem renders_add (a b : MeterDecimal) :
    Renders (addMeterDecimals a b) (a.val + b.val) := by
  obtain ⟨ha, hb⟩ := scaled_div a b
  exact ⟨_, _, rfl, by rw [Nat.cast_add, add_div, ← ha, ← hb]; rfl⟩

private theorem renders_multiply (a : MeterDecimal) (k : ℕ) :
    ∃ s, multiplyMeterDecimal a k = .ok s ∧ Renders s (a.val * k) := by
  rw [multiplyMeterDecimal, if_neg (by simp)]
  exact ⟨_, rfl, _, _, rfl, by rw [← parts_div a, Nat.cast_mul, mul_div_right_comm]; rfl⟩

/-- The difference is a sign and the text of its size. -/
theorem renders_subtract (a b : MeterDecimal) : ∃ s, Renders s |a.val - b.val| ∧
    subtractMeterDecimals a b = (if a.val - b.val < 0 then ['-'] else []) ++ s := by
  have hpow : (0 : ℚ) < 10 ^ (scaled a b).2.2 := by positivity
  obtain ⟨ha, hb⟩ := scaled_div a b
  obtain ⟨diff, hdiff⟩ : ∃ diff : ℤ, ((scaled a b).1 : ℤ) - (scaled a b).2.1 = diff := ⟨_, rfl⟩
  have hval : a.val - b.val = diff / 10 ^ (scaled a b).2.2 := by
    rw [← ha, ← hb, ← sub_div, ← hdiff]
    push_cast
    rfl
  refine ⟨_, ⟨diff.natAbs, (scaled a b).2.2, rfl, ?_⟩, ?_⟩
  · rw [hval, abs_div, abs_of_pos hpow, Nat.cast_natAbs, Int.cast_abs]
  · have hneg : a.val - b.val < 0 ↔ diff < 0 := by
      rw [hval, div_lt_iff₀ hpow, zero_mul, Int.cast_lt_zero]
    simp only [subtractMeterDecimals, hdiff, hneg]

/-- The helpers are exact. -/
theorem meterLaw (a b : MeterDecimal) (k : ℕ) : MeterLaw a b k := by
  obtain ⟨s, hs, hsub⟩ := renders_subtract a b
  obtain ⟨p, hp, hmul⟩ := renders_multiply a k
  obtain ⟨hdec, hmag, -⟩ := hs.spec
  have hvalue : value (subtractMeterDecimals a b) = a.val - b.val := by
    rw [hsub]
    split
    next h => exact (congrArg Neg.neg (hmag.trans (abs_of_neg h))).trans (neg_neg _)
    next h => exact hs.denotes.value.trans (abs_of_nonneg (not_lt.mp h))
  refine ⟨compareMeterDecimals_eq a b, (renders_add a b).denotes, ⟨p, hp, hmul.denotes⟩,
    hvalue, fun h ↦ ?_,
    fun h ↦ ?_, fun a' b' ha hb ↦ ?_⟩
  · rw [hsub, if_neg h.not_gt]
    exact (abs_of_nonneg h ▸ hs).denotes
  · rw [hsub, if_neg (hvalue.symm.trans h).not_lt]
    exact head?_ne_minus hdec
  · obtain ⟨s', hs', hsub'⟩ := renders_subtract a' b'
    obtain ⟨p', hp', hmul'⟩ := renders_multiply a' k
    have hadd' := renders_add a' b'
    rw [← val_eq_of_compare ha, ← val_eq_of_compare hb] at *
    exact ⟨(renders_add a b).unique hadd', by rw [hsub, hsub', hs.unique hs'],
      by rw [hp, hp', hmul.unique hmul']⟩

end FuelGrid.Meter
