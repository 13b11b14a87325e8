import FormBasic.Text.Basic
import FormBasic.Text.Range

/-!
# Blank characters

The characters that trimming removes: the white space of the Unicode standard together with the four
separators `U+001C` to `U+001F`. Written numbers are surrounded by a smaller class, which leaves out
those four.

## Main definitions

* `isBlank` - the characters that trimming removes
* `trimLeft`, `trimRight`, `trim` - a text without its outer blanks
* `isNumberMargin` - the characters allowed around a written number
-/

namespace FormBasic.Text

/-- White space above ASCII. -/
def wideBlankRanges : List (Nat × Nat) :=
  [(0x0085, 0x0085), (0x00A0, 0x00A0), (0x1680, 0x1680), (0x2000, 0x200A), (0x2028, 0x2029),
   (0x202F, 0x202F), (0x205F, 0x205F), (0x3000, 0x3000)]

/-- The characters that trimming removes. -/
def isBlank (c : Char) : Bool :=
  c.toNat == 0x20 || (0x09 ≤ c.toNat && c.toNat ≤ 0x0D) || (0x1C ≤ c.toNat && c.toNat ≤ 0x1F) ||
    within wideBlankRanges c

/-- The characters allowed before and after a written number. -/
def isNumberMargin (c : Char) : Bool :=
  c.toNat == 0x20 || (0x09 ≤ c.toNat && c.toNat ≤ 0x0D) || within wideBlankRanges c

/-- Drops the elements satisfying `p` at the end of a list. -/
def dropWhileEnd {α : Type} (p : α → Bool) (xs : List α) : List α :=
  (xs.reverse.dropWhile p).reverse

/-- Whether the code point is a blank character. -/
def isBlankPoint : CodePoint → Bool := CodePoint.satisfies isBlank

/-- The text without its leading blanks. -/
def trimLeft (s : Text) : Text := .ofList (s.toList.dropWhile isBlankPoint)

/-- The text without its trailing blanks. -/
def trimRight (s : Text) : Text := .ofList (dropWhileEnd isBlankPoint s.toList)

/-- The text without its leading and trailing blanks. -/
def trim (s : Text) : Text :=
  .ofList (dropWhileEnd isBlankPoint (s.toList.dropWhile isBlankPoint))

/-- A number's margin is blank. -/
theorem isBlank_of_isNumberMargin {c : Char} (h : isNumberMargin c = true) : isBlank c = true := by
  simp only [isNumberMargin, isBlank, Bool.or_eq_true] at h ⊢
  rcases h with (h | h) | h
  · exact Or.inl (Or.inl (Or.inl h))
  · exact Or.inl (Or.inl (Or.inr h))
  · exact Or.inr h

end FormBasic.Text
