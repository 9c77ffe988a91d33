import FuelGrid.Text.DecimalTexts

/-!
# The redirect after a login

`safeRedirect` keeps a `?next=` value that begins with one slash. It looks at the text as it was
given; a browser drops tabs and line breaks before it parses a reference, so that a second slash can
hide behind them.
-/

namespace FuelGrid.Redirect

def defaultRedirect : List Char :=
  ['/', 'c', 'o', 'm', 'm', 'a', 'n', 'd', '-', 'c', 'e', 'n', 't', 'e', 'r']

/-- A missing value is an empty one. -/
def safeRedirect (next : List Char) : List Char :=
  if next.head? ≠ some '/' then defaultRedirect
  else if ['/', '/'].isPrefixOf next || ['/', '\\'].isPrefixOf next then defaultRedirect
  else next

/-! ## References

Of the URL standard this is how the origin of a reference that begins with a slash is found. -/

structure Origin where
  scheme : String
  host : String
  port : Option ℕ

/-- Tabs and line breaks. -/
def isBreak (c : Char) : Bool := c ∈ ['\t', '\n', '\r']

/-- The text that is parsed: without control characters and spaces at its ends, and without
breaks. -/
def stripped (s : List Char) : List Char :=
  (Text.trim (· ≤ ' ') s).filter (!isBreak ·)

/-- For `http` and `https` a backslash counts as a slash. -/
def isSlash (c : Char) : Bool := c = '/' || c = '\\'

/-- The host and the port after two slashes or more, without the user before an `@`. -/
def authority (s : List Char) : List Char :=
  ((s.dropWhile isSlash).takeWhile fun c ↦ !(isSlash c || c = '?' || c = '#')).rtakeWhile (· ≠ '@')

/-- The origin of a reference that begins with a slash, from a page. `parseHost` reads a host and a
port; `none` is a failure. -/
def resolve (parseHost : List Char → Option (String × Option ℕ)) (page : Origin)
    (reference : List Char) :
    Option Origin :=
  match stripped reference with
  | _ :: c :: rest =>
    if isSlash c then (parseHost (authority rest)).map fun (host, port) ↦ ⟨page.scheme, host, port⟩
    else some page
  | _ => some page

/-- Breaks, and nothing else, stand between the first slash and a second one. -/
def HidesSlash (next : List Char) : Prop :=
  ∃ b t, next = '/' :: b :: t ∧ isBreak b ∧ ∃ c ∈ t.find? (!isBreak ·), isSlash c

variable {t : List Char}

private theorem stripped_cons (t : List Char) :
    stripped ('/' :: t) = '/' :: (t.rdropWhile (· ≤ ' ')).filter (!isBreak ·) := by
  have hcons : ('/' :: t).rdropWhile (· ≤ ' ') = '/' :: t.rdropWhile (· ≤ ' ') := by
    induction t using List.reverseRecOn with
    | nil => decide
    | append_singleton t c ih =>
      rw [← List.cons_append, List.rdropWhile_concat, List.rdropWhile_concat, ih]
      split <;> rfl
  rw [stripped, Text.trim, List.dropWhile_cons_of_neg (by decide), hcons,
    List.filter_cons_of_pos (by decide)]

/-- What is cut off at the end is no slash. -/
theorem find?_rdropWhile : (∃ c ∈ (t.rdropWhile (· ≤ ' ')).find? (!isBreak ·), isSlash c) ↔
    ∃ c ∈ t.find? (!isBreak ·), isSlash c := by
  have hcut : ∀ c ∈ (t.rtakeWhile (· ≤ ' ')).find? (!isBreak ·), ¬isSlash c := fun c hc hslash ↦ by
    have hle : c ≤ ' ' := of_decide_eq_true
      (List.mem_rtakeWhile_imp (p := (· ≤ ' ')) (List.mem_of_find?_eq_some hc))
    rcases Bool.or_eq_true_iff.mp hslash with h | h <;> rw [of_decide_eq_true h] at hle <;>
      exact absurd hle (by decide)
  conv_rhs => rw [← List.rdropWhile_append_rtakeWhile (p := (· ≤ ' ')) (l := t), List.find?_append]
  rcases (t.rdropWhile (· ≤ ' ')).find? (!isBreak ·) with _ | c
  · simpa using hcut
  · rfl

private theorem isBreak_eq_false {c : Char} (hc : isSlash c) : isBreak c = false := by
  rcases Bool.or_eq_true_iff.mp hc with h | h <;> rw [of_decide_eq_true h] <;> rfl

/-- After a first character that is no slash, only breaks lead to one. -/
theorem hidesSlash_iff (h : ¬t.head?.any isSlash) :
    HidesSlash ('/' :: t) ↔ ∃ c ∈ t.find? (!isBreak ·), isSlash c := by
  rcases t with _ | ⟨b, t⟩
  · simp [HidesSlash]
  have hb : isSlash b = false := by simpa using h
  by_cases hbreak : isBreak b <;> simp [HidesSlash, hbreak, hb]

private theorem safeRedirect_cons (t : List Char) :
    safeRedirect ('/' :: t) = if t.head?.any isSlash then defaultRedirect else '/' :: t := by
  rcases t with _ | ⟨b, t⟩
  · simp [safeRedirect]
  · simp [safeRedirect, isSlash, @eq_comm _ b]

theorem resolve_safeRedirect_iff (parseHost : List Char → Option (String × Option ℕ))
    (page : Origin)
    (next : List Char) : resolve parseHost page (safeRedirect next) = some page ↔ (HidesSlash next →
      parseHost (authority ((stripped next).drop 2)) = some (page.host, page.port)) := by
  have hdefault : resolve parseHost page defaultRedirect = some page := rfl
  rcases next with _ | ⟨d, t⟩
  · simp [safeRedirect, hdefault, HidesSlash]
  by_cases hd : d = '/'
  swap
  · simp [safeRedirect, hdefault, HidesSlash, hd]
  subst hd
  rw [safeRedirect_cons]
  split
  case isTrue hslash =>
    -- The second character is a slash, and so no break.
    refine iff_of_true hdefault ?_
    rintro ⟨b, u, hnx, hb, -⟩
    obtain rfl : t = b :: u := (List.cons.inj hnx).2
    exact absurd hb (by rw [isBreak_eq_false hslash]; decide)
  case isFalse hkt =>
    rw [hidesSlash_iff hkt, ← find?_rdropWhile, ← List.head?_filter, resolve,
      stripped_cons]
    rcases (t.rdropWhile (· ≤ ' ')).filter (!isBreak ·) with _ | ⟨c, rest⟩
    · simp
    rcases page
    by_cases hc : isSlash c <;> simp [hc]

/-- `/⇥/evil.com`. -/
theorem resolve_safeRedirect_tab :
    resolve (fun host ↦ some (String.ofList host, none)) ⟨"https", "app.com", none⟩
      (safeRedirect ['/', '\t', '/', 'e', 'v', 'i', 'l', '.', 'c', 'o', 'm']) =
        some ⟨"https", "evil.com", none⟩ := rfl

end FuelGrid.Redirect
