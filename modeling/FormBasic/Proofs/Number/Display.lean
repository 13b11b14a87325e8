import FormBasic.Proofs.Number.Literal
import FormBasic.Value.Coerce

/-!
# Reading integers back from their display text

The display text of an integer is a minus sign, if it is negative, and its decimal digits. Such a
text has no blanks and reads as the integer, so it counts as that number wherever a text is taken as
a number.

## Main statements

* `Number.readInteger_of_integerText` - the display text of an integer reads as the integer
* `Value.isNumeric_of_integerText`, `Value.toNumber_of_integerText` - it is a numeric text
* `Value.looselyEqual_of_integerText` - it equals that integer and no other one
-/

namespace FormBasic

/-- Nothing is trimmed from a text without blanks. -/
theorem Text.trim_eq_self {s : Text} (h : ∀ c ∈ s.toList, isBlankPoint c = false) :
    trim s = s := by
  have hstart : s.toList.dropWhile isBlankPoint = s.toList := by
    cases hs : s.toList with
    | nil => rfl
    | cons c cs => rw [List.dropWhile_cons, h c (by rw [hs]; exact List.mem_cons_self)]; rfl
  have hend : s.toList.getLast?.any isBlankPoint = false := by
    cases hs : s.toList.getLast? with
    | none => rfl
    | some c => exact h c (List.mem_of_getLast? hs)
  rw [trim, hstart, dropWhileEnd_eq_self hend, ← toList_inj, toList_ofList]

namespace Number

/-- A character of the display text of an integer is no blank and stands for itself. -/
theorem integer_facts {c : Char} (h : isDigitChar c = true ∨ c = '-') :
    Text.isBlank c = false ∧ asciiDigit c = c := by
  have hascii : Text.isAscii c = true := by
    rcases h with h | rfl
    · exact isAscii_of_isDigitChar h
    · rfl
  refine Text.ascii_induction (P := fun c => isDigitChar c = true ∨ c = '-' →
    Text.isBlank c = false ∧ asciiDigit c = c) ?_ hascii h
  decide

section Signed

variable {cs : List Char} {negative : Bool} {n : Int} {t : Text}

theorem mem_signed (h : cs.all isDigitChar = true) {c : Char}
    (hc : c ∈ Binary64.signed negative cs) : isDigitChar c = true ∨ c = '-' := by
  have hdigit : c ∈ cs → isDigitChar c = true := List.all_eq_true.1 h c
  cases negative with
  | false => exact .inl (hdigit hc)
  | true => exact (List.mem_cons.1 hc).symm.imp_left hdigit

theorem takeSign_signed (h : cs.all isDigitChar = true) (negative : Bool) :
    takeSign (Binary64.signed negative cs) = (negative, cs) := by
  cases negative with
  | false => exact takeSign_numeral (isNumeralChar_of_digits h)
  | true => rfl

/-- A sign and a row of digits are a written integer. -/
theorem integerParts?_signed (h : cs.all isDigitChar = true) (negative : Bool) :
    integerParts? (.ofChars (Binary64.signed negative cs)) = some (negative, cs, []) := by
  have hfacts : ∀ c ∈ Binary64.signed negative cs, Text.isBlank c = false ∧ asciiDigit c = c :=
    fun _ hc => integer_facts (mem_signed h hc)
  have hmargin : ∀ c ∈ Binary64.signed negative cs, Text.isNumberMargin c = false := by
    intro c hc
    refine Bool.eq_false_iff.2 fun htrue => ?_
    have hblank := Text.isBlank_of_isNumberMargin htrue
    rw [(hfacts c hc).1] at hblank
    cases hblank
  have hmap : (Binary64.signed negative cs).map asciiDigit = Binary64.signed negative cs := by
    rw [List.map_congr_left (g := id) fun c hc => (hfacts c hc).2, List.map_id]
  refine integerParts?_of_takeSign ?_ h
  rw [shown_ofChars, trimMargins_eq_self hmargin, hmap, takeSign_signed h]

/-- An integer that can be shown has at most 4300 digits, and its text is its digits. -/
theorem integerText_eq_ok_iff :
    integerText n = .ok t ↔ (Nat.toDigits 10 n.natAbs).length ≤ digitLimit ∧
      t = .ofChars (integerDigits n) := by
  have hlength : ∀ limit, 0 < limit → ((Nat.toDigits 10 n.natAbs).length ≤ limit ↔
      n.natAbs < Nat.pow 10 limit) := fun _ hlimit => Nat.length_toDigits_le_iff (by decide) hlimit
  rw [integerText, hlength digitLimit (by decide)]
  -- the power is never computed
  generalize Nat.pow 10 digitLimit = limit
  split
  · next h => exact ⟨fun ht => ⟨h, (Except.ok.inj ht).symm⟩, fun ht => congrArg _ ht.2.symm⟩
  · next h => exact ⟨fun ht => (by cases ht), fun ht => absurd ht.1 h⟩

theorem signedInt_natAbs (n : Int) : signedInt (decide (n < 0)) n.natAbs = n := by
  rcases Int.lt_or_le n 0 with hn | hn
  · rw [decide_eq_true hn, signedInt, if_pos rfl]
    omega
  · rw [decide_eq_false (Int.not_lt.2 hn), signedInt, if_neg Bool.false_ne_true]
    omega

/-- The display text of an integer reads as the integer. -/
theorem readInteger_of_integerText (h : integerText n = .ok t) : readInteger t = .ok n := by
  obtain ⟨hlength, rfl⟩ := integerText_eq_ok_iff.1 h
  have hdigits := all_isDigitChar_toDigits n.natAbs
  have hvalue : digitsFold (Nat.toDigits 10 n.natAbs) = n.natAbs :=
    Nat.ofDigitChars_toDigits (by decide) (Nat.le_refl 10)
  rw [readInteger, integerDigits, integerParts?_signed hdigits]
  simp only
  rw [if_neg (Nat.not_lt.2 hlength), if_neg (by simp [Nat.toDigits_ne_nil]), digitsValue_eq,
    hvalue, signedInt_natAbs]

theorem readNumber?_of_integerText (h : integerText n = .ok t) : readNumber? t = some (.int n) := by
  rw [readNumber?, readInteger_of_integerText h]

/-- The display text of an integer has no blanks around it, and it is not empty. -/
theorem trim_of_integerText (h : integerText n = .ok t) : Text.trim t = t ∧ t.isEmpty = false := by
  obtain ⟨-, rfl⟩ := integerText_eq_ok_iff.1 h
  constructor
  · refine Text.trim_eq_self fun c hc => ?_
    rw [Text.toList_ofChars] at hc
    obtain ⟨c, hdigit, rfl⟩ := List.mem_map.1 hc
    exact (integer_facts (mem_signed (all_isDigitChar_toDigits n.natAbs) hdigit)).1
  · have hne : integerDigits n ≠ [] := by
      rw [integerDigits]
      cases decide (n < 0) with
      | false => exact Nat.toDigits_ne_nil
      | true => exact List.cons_ne_nil _ _
    simp [Text.isEmpty, Text.ofChars, Text.ofString, hne]

end Signed

end Number

namespace Value

variable {n : Int} {t : Text}

theorem numberOfText?_of_integerText (h : Number.integerText n = .ok t) :
    numberOfText? t = some (.int n) := by
  rw [numberOfText?, (Number.trim_of_integerText h).1, Number.readNumber?_of_integerText h]

theorem toNumber_of_integerText (h : Number.integerText n = .ok t) :
    (Value.text t).toNumber = .int n := by
  rw [toNumber, numberOfText?_of_integerText h]
  rfl

theorem isNumeric_of_integerText (h : Number.integerText n = .ok t) :
    (Value.text t).isNumeric = true := by
  obtain ⟨htrim, hempty⟩ := Number.trim_of_integerText h
  rw [isNumeric, htrim, hempty, numberOfText?_of_integerText h]
  rfl

/-- The display text of an integer equals that integer and no other one. -/
theorem looselyEqual_of_integerText (h : Number.integerText n = .ok t) (m : Int) :
    (Value.text t).looselyEqual (.int m) = (n == m) := by
  simp only [looselyEqual, number?, isNumeric_of_integerText h, toNumber_of_integerText h,
    Number.same_int, Bool.true_and]

end Value

end FormBasic
