import Mathlib.Tactic.FinCases
import FuelGrid.Sql.Numeric

/-!
# Two readers of decimal texts

A text that stands for an amount is read twice: by `ParseFloat` of Go's `strconv`, whose `float64`
decides whether the text is taken, and by `numeric_in` of PostgreSQL 16, which makes the stored
value of it. The readers agree on what a plain decimal is and differ on much else: spaces,
hexadecimal numbers, where an underscore may stand, and how large an exponent may be. Both know the
word `NaN`, in any case of letters.
-/

namespace FuelGrid.Text

open Sql

/-- What follows a word at the start of a text, in any case of letters. -/
def stripWord : List Char → List Char → Option (List Char)
  | [], s => some s
  | _ :: _, [] => none
  | w :: ws, c :: cs => if c.toLower = w then stripWord ws cs else none

/-- What follows `infinity` or `inf`. -/
def stripInfinity (s : List Char) : Option (List Char) :=
  (stripWord ['i', 'n', 'f', 'i', 'n', 'i', 't', 'y'] s).or (stripWord ['i', 'n', 'f'] s)

/-- A digit of a base. -/
def digit? (base : ℕ) (c : Char) : Option ℕ :=
  let d :=
    if c.isDigit then c.toNat - 48
    else if 'a' ≤ c.toLower ∧ c.toLower ≤ 'f' then c.toLower.toNat - 87
    else base
  if d < base then some d else none

def startsWithDigit (base : ℕ) : List Char → Bool
  | [] => false
  | c :: _ => (digit? base c).isSome

/-- An optional sign: whether it is a minus, and what follows. -/
def readSign : List Char → Bool × List Char
  | '-' :: s => (true, s)
  | '+' :: s => (false, s)
  | s => (false, s)

/-- `x * base ^ e` or `x / base ^ e`. -/
def scaled (base : ℕ) (x : ℚ) (negative : Bool) (e : ℕ) : ℚ :=
  if negative then x / base ^ e else x * base ^ e

def signed (negative : Bool) (x : ℚ) : ℚ := if negative then -x else x

/-! ## ParseFloat

`parseFloat` keeps the number as the text has it, before it is rounded to a `float64`; of the
rounding only the comparison with zero (`floatNonneg`, `floatPos`) and the overflow are needed. -/

/-- `special`: the words for values that are not numbers, and what follows. -/
def special : List Char → Option (Numeric × List Char)
  | [] => none
  | c :: cs =>
    if c = '+' ∨ c = '-' then (stripInfinity cs).map (.infinity (c = '-'), ·)
    else if c.toLower = 'i' then (stripInfinity (c :: cs)).map (.infinity false, ·)
    else if c.toLower = 'n' then (stripWord ['n', 'a', 'n'] (c :: cs)).map (.nan, ·)
    else none

/-- What the loop of `readFloat` has seen of a mantissa. -/
structure Mantissa where
  value : ℕ
  /-- The digits after the point. -/
  scale : ℕ
  sawdot : Bool
  sawdigits : Bool
  underscores : Bool

def Mantissa.zero : Mantissa := ⟨0, 0, false, false, false⟩

/-- The loop of `readFloat`: the mantissa and what follows. -/
def scanMantissa (base : ℕ) : Mantissa → List Char → Mantissa × List Char
  | m, [] => (m, [])
  | m, c :: cs =>
    if c = '_' then scanMantissa base { m with underscores := true } cs
    else if c = '.' then
      if m.sawdot then (m, c :: cs) else scanMantissa base { m with sawdot := true } cs
    else match digit? base c with
      | none => (m, c :: cs)
      | some d => scanMantissa base { m with
          value := m.value * base + d
          scale := if m.sawdot then m.scale + 1 else m.scale
          sawdigits := true } cs

/-- The digits of an exponent, which stops growing when it is past all bounds, and whether there
were underscores among them. -/
def scanExponent : ℕ → Bool → List Char → ℕ × Bool × List Char
  | e, underscores, [] => (e, underscores, [])
  | e, underscores, c :: cs =>
    if c = '_' then scanExponent e true cs
    else match digit? 10 c with
      | none => (e, underscores, c :: cs)
      | some d => scanExponent (if e < 10000 then e * 10 + d else e) underscores cs

/-- The base, the letter of the exponent and the rest of a text without its sign. -/
def floatBase : List Char → ℕ × Char × List Char
  | '0' :: x :: c :: cs =>
    if x.toLower = 'x' then (16, 'p', c :: cs) else (10, 'e', '0' :: x :: c :: cs)
  | s => (10, 'e', s)

/-- The exponent after a mantissa: its sign, its value, its underscores and what follows. A
hexadecimal number must have one. -/
def floatExponent (base : ℕ) (letter : Char) : List Char → Option (Bool × ℕ × Bool × List Char)
  | [] => if base = 16 then none else some (false, 0, false, [])
  | c :: cs =>
    if c.toLower = letter then
      let (negative, ds) := readSign cs
      if startsWithDigit 10 ds then some (negative, scanExponent 0 false ds) else none
    else if base = 16 then none else some (false, 0, false, c :: cs)

/-- The last character that `underscoreOK` has looked at. -/
inductive Seen where
  | digit | underscore | other
  deriving DecidableEq

/-- The loop of `underscoreOK`: an underscore stands between digits. -/
def underscoresBetween (base : ℕ) : Seen → List Char → Bool
  | seen, [] => seen ≠ .underscore
  | seen, c :: cs =>
    if (digit? base c).isSome then underscoresBetween base .digit cs
    else if c = '_' then seen = .digit && underscoresBetween base .underscore cs
    else seen ≠ .underscore && underscoresBetween base .other cs

/-- `underscoreOK`. The letters of a base count as a digit. -/
def underscoreOK (s : List Char) : Bool :=
  match (readSign s).2 with
  | '0' :: x :: cs =>
    if x.toLower = 'x' then underscoresBetween 16 .digit cs
    else if x.toLower = 'b' ∨ x.toLower = 'o' then underscoresBetween 10 .digit cs
    else underscoresBetween 10 .other ('0' :: x :: cs)
  | s => underscoresBetween 10 .other s

/-- `readFloat` of a whole text. -/
def readFloat (s : List Char) : Option ℚ :=
  let (negative, s₁) := readSign s
  let (base, letter, s₂) := floatBase s₁
  let (m, s₃) := scanMantissa base .zero s₂
  if !m.sawdigits then none
  else match floatExponent base letter s₃ with
    | none => none
    | some (down, e, underscores, rest) =>
      if rest = [] ∧ ((m.underscores || underscores) → underscoreOK s) then
        some (signed negative
          (scaled (if base = 16 then 2 else 10) (m.value / base ^ m.scale) down e))
      else none

/-- `ParseFloat`, without the rounding. A number that would round to `2 ^ 1024` is out of range. -/
def parseFloat (s : List Char) : Option Numeric :=
  match special s with
  | some (x, rest) => if rest = [] then some x else none
  | none => match readFloat s with
    | none => none
    | some q => if |q| < 2 ^ 1024 - 2 ^ 970 then some (.finite q) else none

/-- Rounded to a `float64`, the number is not `< 0`: a negative one up to half of the smallest
`float64` is rounded to zero. -/
def floatNonneg : Numeric → Bool
  | .nan => true
  | .infinity negative => !negative
  | .finite q => -(1 / 2 ^ 1075) ≤ q

/-- Rounded to a `float64`, the number is not `<= 0`. -/
def floatPos : Numeric → Bool
  | .nan => true
  | .infinity negative => !negative
  | .finite q => 1 / 2 ^ 1075 < q

/-! ## numeric_in -/

def isSpace (c : Char) : Bool := c ∈ [' ', '\t', '\n', '\x0b', '\x0c', '\r']

/-- The digits of an integer, with underscores that must be followed by a digit. -/
def scanDigits (base : ℕ) : ℕ → List Char → Option (ℕ × List Char)
  | v, [] => some (v, [])
  | v, c :: cs =>
    match digit? base c with
    | some d => scanDigits base (v * base + d) cs
    | none =>
      if c = '_' then if startsWithDigit base cs then scanDigits base v cs else none
      else some (v, c :: cs)

/-- The digits of a decimal: their value, how many stand after the point, and what follows. -/
def scanDecimal : ℕ → ℕ → Bool → List Char → Option (ℕ × ℕ × List Char)
  | v, scale, _, [] => some (v, scale, [])
  | v, scale, have_dp, c :: cs =>
    match digit? 10 c with
    | some d => scanDecimal (v * 10 + d) (if have_dp then scale + 1 else scale) have_dp cs
    | none =>
      if c = '.' then
        if have_dp ∨ cs.head? = some '_' then none else scanDecimal v scale true cs
      else if c = '_' then
        if startsWithDigit 10 cs then scanDecimal v scale have_dp cs else none
      else some (v, scale, c :: cs)

/-- The exponent after the digits: its sign, its value and what follows. -/
def decimalExponent : List Char → Option (Bool × ℕ × List Char)
  | [] => some (false, 0, [])
  | c :: cs =>
    if c.toLower = 'e' then
      let (negative, ds) := readSign cs
      if startsWithDigit 10 ds then (scanDigits 10 0 ds).map (negative, ·) else none
    else some (false, 0, c :: cs)

/-- `make_result`: a number of the type has at most 131072 digits before the point and 16383 after
it. -/
def makeResult (negative : Bool) (x : ℚ) (dscale : ℕ) : Option Numeric :=
  if x < 10 ^ 131072 ∧ dscale ≤ 16383 then some (.finite (signed negative x)) else none

def leadingPoint : List Char → Bool × List Char
  | '.' :: ds => (true, ds)
  | ds => (false, ds)

/-- `set_var_from_str`, for the rest of a text without its sign. -/
def decimalIn (negative : Bool) (s : List Char) : Option Numeric :=
  let (have_dp, ds) := leadingPoint s
  if !startsWithDigit 10 ds then none
  else match scanDecimal 0 0 have_dp ds with
    | none => none
    | some (v, scale, s₁) =>
      match decimalExponent s₁ with
      | none => none
      | some (down, e, rest) =>
        if e ≤ 1073741823 ∧ rest.all isSpace then
          makeResult negative (scaled 10 (v / 10 ^ scale) down e)
            (if down then scale + e else scale - e)
        else none

/-- `set_var_from_non_decimal_integer_str`, for what follows `0x`, `0o` or `0b`. -/
def integerIn (negative : Bool) (base : ℕ) (s : List Char) : Option Numeric :=
  match scanDigits base 0 s with
  | none => none
  | some (v, rest) =>
    if rest ≠ s ∧ rest.all isSpace then makeResult negative v 0 else none

/-- The words for values that are not numbers; only an infinity has a sign. -/
def wordIn (unsigned : List Char) (negative : Bool) (s : List Char) : Option Numeric :=
  match stripWord ['n', 'a', 'n'] unsigned with
  | some rest => if rest.all isSpace then some .nan else none
  | none => match stripInfinity s with
    | some rest => if rest.all isSpace then some (.infinity negative) else none
    | none => none

/-- `numeric_in`; `none` is an error. -/
def numericIn (s : List Char) : Option Numeric :=
  let numstart := s.dropWhile isSpace
  let (negative, cp) := readSign numstart
  if !(startsWithDigit 10 cp || cp.head? = some '.') then wordIn numstart negative cp
  else match cp with
    | '0' :: x :: cs =>
      if x.toLower = 'x' then integerIn negative 16 cs
      else if x.toLower = 'o' then integerIn negative 8 cs
      else if x.toLower = 'b' then integerIn negative 2 cs
      else decimalIn negative cp
    | cp => decimalIn negative cp

/-! ## NaN

A text is `NaN` to `parseFloat` exactly if it is that word (`parseFloat_eq_nan_iff`), and a text
that is a number to `parseFloat` is not `NaN` to `numericIn` (`numericIn_ne_nan`). -/

variable {s : List Char}

private theorem stripWord_eq_nil {w : List Char} :
    stripWord w s = some [] ↔ s.map Char.toLower = w := by
  induction w generalizing s with
  | nil => simp [stripWord]
  | cons w ws ih =>
    rcases s with _ | ⟨c, cs⟩
    · simp [stripWord]
    · by_cases hc : c.toLower = w
      · simp [stripWord, hc, ih]
      · simp [stripWord, hc]

private theorem special_eq_nan {rest : List Char} :
    special s = some (.nan, rest) ↔ stripWord ['n', 'a', 'n'] s = some rest := by
  rcases s with _ | ⟨c, cs⟩
  · simp [special, stripWord]
  · rw [special]
    split
    next hc =>
      -- A sign is followed by an infinity only.
      rcases hc with rfl | rfl <;> simp [stripWord]
    · split
      next hi => simp [stripWord, hi]
      · split
        · simp
        next hn => simp [stripWord, hn]

/-- A text is `NaN` to `ParseFloat` if it is that word. -/
theorem parseFloat_eq_nan_iff :
    parseFloat s = some .nan ↔ s.map Char.toLower = ['n', 'a', 'n'] := by
  rw [← stripWord_eq_nil, ← special_eq_nan, parseFloat]
  rcases special s with _ | ⟨x, rest⟩
  · constructor
    · intro h
      simp only at h
      split at h
      · cases h
      · split at h <;> cases h
    · intro h
      cases h
  · by_cases hrest : rest = [] <;> simp [hrest]

private theorem makeResult_ne_nan (negative : Bool) (x : ℚ) (dscale : ℕ) :
    makeResult negative x dscale ≠ some .nan := by
  rw [makeResult]
  split <;> simp

private theorem decimalIn_ne_nan (negative : Bool) (s : List Char) :
    decimalIn negative s ≠ some .nan := by
  rw [decimalIn]
  simp only
  split
  · simp
  · split
    · simp
    · split
      · simp
      · split
        · exact makeResult_ne_nan _ _ _
        · simp

private theorem integerIn_ne_nan (negative : Bool) (base : ℕ) (s : List Char) :
    integerIn negative base s ≠ some .nan := by
  rw [integerIn]
  split
  · simp
  · split
    · exact makeResult_ne_nan _ _ _
    · simp

/-- The texts that are `NaN` to `numeric_in` have the word between spaces. -/
theorem stripWord_of_numericIn (h : numericIn s = some .nan) :
    ∃ rest, stripWord ['n', 'a', 'n'] (s.dropWhile isSpace) = some rest := by
  simp only [numericIn] at h
  split at h
  · rw [wordIn] at h
    split at h
    next rest hrest => exact ⟨rest, hrest⟩
    · split at h
      · split at h <;> cases h
      · cases h
  · split at h
    · split_ifs at h
      · exact absurd h (integerIn_ne_nan _ _ _)
      · exact absurd h (integerIn_ne_nan _ _ _)
      · exact absurd h (integerIn_ne_nan _ _ _)
      · exact absurd h (decimalIn_ne_nan _ _)
    · exact absurd h (decimalIn_ne_nan _ _)

/-- `ParseFloat` takes no leading space. -/
theorem parseFloat_of_isSpace {c : Char} {cs : List Char} (hc : isSpace c) :
    parseFloat (c :: cs) = none := by
  have hmem : c ∈ [' ', '\t', '\n', '\x0b', '\x0c', '\r'] := by simpa [isSpace] using hc
  fin_cases hmem <;> rfl

/-- What `ParseFloat` takes for a number is not `NaN` to `numeric_in`. -/
theorem numericIn_ne_nan {x : Numeric} (h : parseFloat s = some x) (hx : x ≠ .nan) :
    numericIn s ≠ some .nan := by
  intro hnan
  obtain ⟨rest, hrest⟩ := stripWord_of_numericIn hnan
  have hspa : s.dropWhile isSpace = s := by
    rcases s with _ | ⟨c, cs⟩
    · rfl
    · rw [List.dropWhile_cons_of_neg]
      intro hc
      rw [parseFloat_of_isSpace hc] at h
      cases h
  rw [hspa, ← special_eq_nan] at hrest
  rw [parseFloat, hrest] at h
  simp only at h
  split at h
  · exact hx (Option.some.inj h).symm
  · cases h

end FuelGrid.Text
