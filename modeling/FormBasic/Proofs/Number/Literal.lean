import FormBasic.Grammar.Expr
import FormBasic.Proofs.Text.Ascii
import FormBasic.Proofs.Token.Scanning
import FormBasic.Tree.Write

/-!
# Reading literals back

A literal is scanned as one number. Reading it gives the number it was written for in the case of
natural numbers with at most 4300 digits; floats may lose digits when they are written, so for them
it is a condition.

## Main definitions

* `isNumeral` - what a numeric literal looks like
* `Number.readsBack` - numbers that are read back from their literal

## Main statements

* `scans_numeral` - a numeral is scanned as one number
* `numberOf_digits` - the value of a row of digits
* `numberOf_long_digits` - rows of digits that are refused
* `exists_numberOf` - numerals that stand for a number
* `readsBack_natural` - natural numbers of at most 4300 digits read back
-/

namespace FormBasic

/-- Whether the text is what a numeric literal looks like: digits, or digits with a point among
them that has a digit after it. -/
def isNumeral (s : Text) : Bool :=
  match s.plain? with
  | none => false
  | some t =>
    match t.toList.dropWhile isDigitChar with
    | [] => !t.toList.isEmpty
    | '.' :: places => !places.isEmpty && places.all isDigitChar
    | _ => false

/-- Whether a number is read back from its literal. -/
def Number.readsBack (n : Number) : Bool :=
  match n.literal with
  | .error _ => false
  | .ok text =>
    isNumeral text &&
      match numberOf text with
      | .error _ => false
      | .ok m => Number.same n m

theorem eq_ofChars_of_plain? {s : Text} {t : String} (h : s.plain? = some t) :
    s = .ofChars t.toList := by
  obtain ⟨start, rest⟩ := s
  simp only [Text.plain?, List.isEmpty_iff] at h
  split at h
  · next hrest =>
    simp only [Option.some.injEq] at h
    subst h hrest
    simp [Text.ofChars, Text.ofString]
  · cases h

/-- The two shapes of a numeral. -/
theorem numeral_cases {s : Text} (h : isNumeral s = true) :
    (∃ c cs, s = .ofChars (c :: cs) ∧ (c :: cs).all isDigitChar = true) ∨
    (∃ ds es, s = .ofChars (ds ++ '.' :: es) ∧ ds.all isDigitChar = true ∧
      es.all isDigitChar = true ∧ es ≠ []) := by
  unfold isNumeral at h
  split at h
  · cases h
  · next t ht =>
    have hs := eq_ofChars_of_plain? ht
    have hsplit := List.takeWhile_append_dropWhile (p := isDigitChar) (l := t.toList)
    have hdigits : (t.toList.takeWhile isDigitChar).all isDigitChar = true := List.all_takeWhile
    split at h
    · next hdrop =>
      rw [hdrop, List.append_nil] at hsplit
      rw [hsplit] at hdigits
      cases hcs : t.toList with
      | nil => simp [hcs] at h
      | cons c cs => exact .inl ⟨c, cs, hcs ▸ hs, hcs ▸ hdigits⟩
    · next places hdrop =>
      simp only [Bool.and_eq_true, Bool.not_eq_true', List.isEmpty_eq_false_iff] at h
      rw [hdrop] at hsplit
      rw [← hsplit] at hs
      exact .inr ⟨_, places, hs, hdigits, h.2, h.1⟩
    · cases h

/-- A numeral is scanned as one number. -/
theorem scans_numeral {s : Text} (h : isNumeral s = true) :
    Scans s.toList [⟨.number, s⟩] Detached := by
  rcases numeral_cases h with ⟨c, cs, rfl, hcs⟩ | ⟨ds, es, rfl, hds, hes, hne⟩
  · rw [Text.toList_ofChars]
    exact scans_digits hcs
  · rw [Text.toList_ofChars]
    exact scans_decimal hds hes hne

namespace Number

theorem toNat_of_isDigitChar {c : Char} (h : isDigitChar c = true) :
    48 ≤ c.toNat ∧ c.toNat ≤ 57 := by
  simp only [isDigitChar, Bool.and_eq_true, decide_eq_true_eq] at h
  exact h

theorem isAscii_of_isDigitChar {c : Char} (h : isDigitChar c = true) : Text.isAscii c = true := by
  have := toNat_of_isDigitChar h
  simp only [Text.isAscii, decide_eq_true_eq]
  omega

/-- Whether the character can stand in a numeral: a digit or a point. -/
def isNumeralChar (c : Char) : Bool := isDigitChar c || c == '.'

theorem isNumeralChar_of_digits {cs : List Char} (h : cs.all isDigitChar = true) :
    cs.all isNumeralChar = true := by
  rw [List.all_eq_true] at h ⊢
  exact fun c hc => by simp [isNumeralChar, h c hc]

/-- A character of a numeral is no margin, stands for itself and is no sign and no underscore. -/
theorem numeral_facts {c : Char} (h : isNumeralChar c = true) :
    Text.isNumberMargin c = false ∧ asciiDigit c = c ∧ c ≠ '-' ∧ c ≠ '+' ∧ c ≠ '_' := by
  have hascii : Text.isAscii c = true := by
    simp only [isNumeralChar, Bool.or_eq_true, beq_iff_eq] at h
    rcases h with h | rfl
    · exact isAscii_of_isDigitChar h
    · rfl
  refine Text.ascii_induction (P := fun c => isNumeralChar c = true →
    Text.isNumberMargin c = false ∧ asciiDigit c = c ∧ c ≠ '-' ∧ c ≠ '+' ∧ c ≠ '_')
    ?_ hascii h
  decide

/-- A digit can stand in a written integer and is no point. -/
theorem digit_facts {c : Char} (h : isDigitChar c = true) :
    isDigitOrSeparator c = true ∧ c ≠ '.' := by
  refine Text.ascii_induction (P := fun c => isDigitChar c = true →
    isDigitOrSeparator c = true ∧ c ≠ '.') ?_ (isAscii_of_isDigitChar h) h
  decide

/-- Nothing is trimmed where no character is a margin. -/
theorem trimMargins_eq_self {cs : List Char} (h : ∀ c ∈ cs, Text.isNumberMargin c = false) :
    trimMargins cs = cs := by
  have hdrop : cs.dropWhile Text.isNumberMargin = cs := by
    cases cs with
    | nil => rfl
    | cons c cs => rw [List.dropWhile_cons, h c (by simp)]; rfl
  rw [trimMargins, hdrop]
  apply Text.dropWhileEnd_eq_self
  cases hlast : cs.getLast? with
  | none => rfl
  | some c => simpa using h c (List.mem_of_getLast? hlast)

theorem trimMargins_numeral {cs : List Char} (h : cs.all isNumeralChar = true) :
    trimMargins cs = cs :=
  trimMargins_eq_self fun c hc => (numeral_facts (List.all_eq_true.1 h c hc)).1

theorem map_asciiDigit_numeral {cs : List Char} (h : cs.all isNumeralChar = true) :
    cs.map asciiDigit = cs := by
  conv => rhs; rw [← List.map_id cs]
  exact List.map_congr_left fun c hc => (numeral_facts (List.all_eq_true.1 h c hc)).2.1

theorem takeSign_numeral {cs : List Char} (h : cs.all isNumeralChar = true) :
    takeSign cs = (false, cs) := by
  cases cs with
  | nil => rfl
  | cons c cs =>
    simp only [List.all_cons, Bool.and_eq_true] at h
    obtain ⟨-, -, hminus, hplus, -⟩ := numeral_facts h.1
    unfold takeSign
    split
    · next heq => cases heq; exact absurd rfl hminus
    · next heq => cases heq; exact absurd rfl hplus
    · rfl

theorem dropSeparators?_numeral {cs : List Char} (h : cs.all isNumeralChar = true) :
    dropSeparators? cs = some cs := by
  induction cs with
  | nil => rfl
  | cons c cs ih =>
    simp only [List.all_cons, Bool.and_eq_true] at h
    obtain ⟨-, -, -, -, hc⟩ := numeral_facts h.1
    have hrest := ih h.2
    unfold dropSeparators?
    split
    · next heq => cases heq
    · next heq => cases heq; exact absurd rfl hc
    · next heq => cases heq; exact absurd rfl hc
    · next heq =>
      cases heq
      simp only [List.all_cons, Bool.and_eq_true] at h
      exact absurd rfl (numeral_facts h.2.1).2.2.2.2
    · next heq =>
      cases heq
      rw [hrest]
      rfl

theorem shown_ofChars (cs : List Char) : (Text.ofChars cs).shown = cs := by
  simp [Text.shown, CodePoint.shown, Function.comp_def]

/-- A text with a sign and a row of digits between its margins is a written integer. -/
theorem integerParts?_of_takeSign {s : Text} {negative : Bool} {cs : List Char}
    (hsign : takeSign ((trimMargins s.shown).map asciiDigit) = (negative, cs))
    (h : cs.all isDigitChar = true) : integerParts? s = some (negative, cs, []) := by
  have hall : ∀ c ∈ cs, isDigitOrSeparator c = true :=
    fun c hc => (digit_facts (List.all_eq_true.1 h c hc)).1
  have htake : cs.takeWhile isDigitOrSeparator = cs := by
    rw [← List.append_nil cs, List.takeWhile_append_of_pos hall, List.takeWhile_nil]
  have hdrop : cs.dropWhile isDigitOrSeparator = [] := by
    rw [← List.append_nil cs, List.dropWhile_append_of_pos hall, List.dropWhile_nil]
  simp only [integerParts?, hsign, htake, hdrop, dropSeparators?_numeral (isNumeralChar_of_digits h)]
  rfl

/-- A row of digits is a written integer without a sign. -/
theorem integerParts?_digits {cs : List Char} (h : cs.all isDigitChar = true) :
    integerParts? (.ofChars cs) = some (false, cs, []) := by
  have hchars := isNumeralChar_of_digits h
  refine integerParts?_of_takeSign ?_ h
  rw [shown_ofChars, trimMargins_numeral hchars, map_asciiDigit_numeral hchars,
    takeSign_numeral hchars]

/-- A row of at most 4300 digits is read as the integer it stands for. -/
theorem readInteger_digits {cs : List Char} (h : cs.all isDigitChar = true) (hne : cs ≠ [])
    (hlen : cs.length ≤ digitLimit) :
    readInteger (.ofChars cs) = .ok (Nat.ofDigitChars 10 cs 0) := by
  simp only [readInteger, integerParts?_digits h]
  rw [if_neg (by omega), if_neg (by simp [hne]), digitsValue_eq]
  rfl

/-- A longer row of digits is refused. -/
theorem readInteger_long_digits {cs : List Char} (h : cs.all isDigitChar = true)
    (hlong : digitLimit < cs.length) :
    readInteger (.ofChars cs) = .error (.tooManyDigits cs.length) := by
  simp only [readInteger, integerParts?_digits h]
  rw [if_pos hlong]

theorem isAsciiDigit_of_isDigitChar {c : Char} (h : isDigitChar c = true) :
    Text.isAsciiDigit c = true := by
  refine Text.ascii_induction (P := fun c => isDigitChar c = true → Text.isAsciiDigit c = true)
    ?_ (isAscii_of_isDigitChar h) h
  decide

/-- Digits, a point and more digits are read as a float. -/
theorem readDecimal_digits {ds es : List Char} (hds : ds.all isDigitChar = true)
    (hes : es.all isDigitChar = true) (hne : es ≠ []) :
    ∃ x, readDecimal (.ofChars (ds ++ '.' :: es)) = .ok x := by
  have hchars : (ds ++ '.' :: es).all isNumeralChar = true := by
    rw [List.all_append, List.all_cons, isNumeralChar_of_digits hds, isNumeralChar_of_digits hes]
    rfl
  have hascii : ∀ {cs : List Char}, cs.all isDigitChar = true →
      ∀ c ∈ cs, Text.isAsciiDigit c = true :=
    fun h c hc => isAsciiDigit_of_isDigitChar (List.all_eq_true.1 h c hc)
  have htake : ∃ x, takeDecimal? (ds ++ '.' :: es) = some (x, -(es.length : Int), []) := by
    have hplaces : es.takeWhile Text.isAsciiDigit = es ∧ es.dropWhile Text.isAsciiDigit = [] := by
      rw [← List.append_nil es, List.takeWhile_append_of_pos (hascii hes),
        List.dropWhile_append_of_pos (hascii hes)]
      exact ⟨by simp, rfl⟩
    refine ⟨digitsValue (ds ++ es), ?_⟩
    simp only [takeDecimal?, List.takeWhile_append_of_pos (hascii hds),
      List.dropWhile_append_of_pos (hascii hds)]
    simp [Text.isAsciiDigit, hplaces, hne, takeExponent]
  obtain ⟨x, hx⟩ := htake
  simp only [readDecimal, readDecimal?, shown_ofChars, trimMargins_numeral hchars,
    map_asciiDigit_numeral hchars, dropSeparators?_numeral hchars, takeSign_numeral hchars, hx,
    Option.bind_eq_bind, Option.bind_some]
  exact ⟨_, rfl⟩

end Number

theorem contains_point_digits {cs : List Char} (h : cs.all isDigitChar = true) :
    (Text.ofChars cs).toList.contains (.char '.') = false := by
  rw [Text.toList_ofChars, Bool.eq_false_iff]
  intro hmem
  rw [List.contains_iff_mem, List.mem_map] at hmem
  obtain ⟨c, hc, hcp⟩ := hmem
  cases hcp
  exact (Number.digit_facts (List.all_eq_true.1 h _ hc)).2 rfl

theorem numberOf_digits {cs : List Char} (h : cs.all isDigitChar = true) (hne : cs ≠ [])
    (hlen : cs.length ≤ digitLimit) :
    numberOf (.ofChars cs) = .ok (.int (Nat.ofDigitChars 10 cs 0)) := by
  rw [numberOf, contains_point_digits h, Number.readInteger_digits h hne hlen]
  rfl

theorem numberOf_long_digits {cs : List Char} (h : cs.all isDigitChar = true)
    (hlong : digitLimit < cs.length) :
    numberOf (.ofChars cs) = .error (.refused (.tooManyDigits cs.length)) := by
  rw [numberOf, contains_point_digits h, Number.readInteger_long_digits h hlong]
  rfl

/-- Every numeral without a point that has at most 4300 digits, and every numeral with a point,
stands for a number. -/
theorem exists_numberOf {s : Text} (h : isNumeral s = true)
    (hlen : s.toList.contains (.char '.') = false → s.toList.length ≤ digitLimit) :
    ∃ n, numberOf s = .ok n := by
  rcases numeral_cases h with ⟨c, cs, rfl, hcs⟩ | ⟨ds, es, rfl, hds, hes, hne⟩
  · have hlen' := hlen (contains_point_digits hcs)
    rw [Text.toList_ofChars, List.length_map] at hlen'
    exact ⟨_, numberOf_digits hcs (by simp) hlen'⟩
  · obtain ⟨x, hx⟩ := Number.readDecimal_digits hds hes hne
    have hpoint : (Text.ofChars (ds ++ '.' :: es)).toList.contains (.char '.') = true := by
      simp
    exact ⟨.float x, by rw [numberOf, hpoint, hx]; rfl⟩

theorem all_isDigitChar_toDigits (n : Nat) : (Nat.toDigits 10 n).all isDigitChar = true := by
  rw [List.all_eq_true]
  intro c hc
  have := Nat.isDigit_of_mem_toDigits (by decide) (by decide) hc
  simp only [Char.isDigit, Bool.and_eq_true, decide_eq_true_eq] at this
  simp only [isDigitChar, Bool.and_eq_true, decide_eq_true_eq]
  exact this

theorem isNumeral_of_digits {cs : List Char} (h : cs.all isDigitChar = true) (hne : cs ≠ []) :
    isNumeral (.ofChars cs) = true := by
  have hdrop : cs.dropWhile isDigitChar = [] := by
    rw [← List.append_nil cs, List.dropWhile_append_of_pos (List.all_eq_true.1 h),
      List.dropWhile_nil]
  simp [isNumeral, Text.ofChars, Text.ofString, Text.plain?, hdrop, hne]

theorem isNumeral_of_decimal {ds es : List Char} (hds : ds.all isDigitChar = true)
    (hes : es.all isDigitChar = true) (hne : es ≠ []) :
    isNumeral (.ofChars (ds ++ '.' :: es)) = true := by
  have hdrop : (ds ++ '.' :: es).dropWhile isDigitChar = '.' :: es := by
    rw [List.dropWhile_append_of_pos (List.all_eq_true.1 hds), List.dropWhile_cons]
    rfl
  simp [isNumeral, Text.ofChars, Text.ofString, Text.plain?, hdrop, hes, hne]

/-- Natural numbers of at most 4300 digits are read back from their literals. -/
theorem readsBack_natural {m : Nat} (hlen : (Nat.toDigits 10 m).length ≤ digitLimit) :
    (Number.int m).readsBack = true := by
  have hm : m < 10 ^ digitLimit := (Nat.length_toDigits_le_iff (by decide) (by decide)).1 hlen
  have hliteral : (Number.int m).literal = .ok (.ofChars (Nat.toDigits 10 m)) := by
    have hsign : ¬ (m : Int) < 0 := by omega
    simp only [Number.literal, Number.integerText, Number.integerDigits, Binary64.signed,
      Int.natAbs_natCast, Nat.pow_eq, hm, if_true, hsign, decide_false, Bool.false_eq_true,
      if_false]
    rfl
  have hdigits := all_isDigitChar_toDigits m
  simp only [Number.readsBack, hliteral, isNumeral_of_digits hdigits Nat.toDigits_ne_nil,
    numberOf_digits hdigits Nat.toDigits_ne_nil hlen,
    Nat.ofDigitChars_toDigits (show 1 < 10 by decide) (Nat.le_refl 10), Number.same_int,
    beq_self_eq_true, Bool.and_self]

end FormBasic
