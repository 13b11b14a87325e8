/-!
# Texts

A text is a sequence of code points. Nearly all of them are characters; but scripts can also make,
cut out and compare single halves of surrogate pairs, which are code points and no characters. A
text is kept as its characters up to the first lone half, and each lone half with the characters
that follow it, so that a text without such halves is a string.

## Main definitions

* `CodePoint` - a character or a lone half
* `Text` - texts, with `Text.toList` and `Text.ofList` as their view
* `Text.plain?` - the string that a text without halves is
* `Text.joined` - texts with a separator between them

## Main statements

* `Text.toList_ofList`, `Text.ofList_toList` - a text is its list of code points
* `Text.toList_append` - appending texts appends their code points
-/

namespace FormBasic

-- ════════════════════════════════════════════════════════════════════════════
-- Code points
-- ════════════════════════════════════════════════════════════════════════════

/-- A character, or one half of a surrogate pair that stands alone. -/
inductive CodePoint where
  | char (c : Char)
  /-- The half with the code `0xD800 + offset`. -/
  | half (offset : Fin 2048)
  deriving Repr, DecidableEq

namespace CodePoint

/-- The number of a code point. -/
def code : CodePoint → Nat
  | .char c => c.toNat
  | .half offset => 0xD800 + offset

/-- The code point of a number; none beyond the last one. -/
def ofCode? (n : Nat) : Option CodePoint :=
  if n.isValidChar then some (.char (Char.ofNat n))
  else if n < 0x110000 then some (.half (Fin.ofNat 2048 (n - 0xD800)))
  else none

/-- Whether the code point is a character with a property. -/
def satisfies (p : Char → Bool) : CodePoint → Bool
  | .char c => p c
  | .half _ => false

/-- The character, if the code point is one. -/
def char? : CodePoint → Option Char
  | .char c => some c
  | .half _ => none

/-- The character, or the replacement character for a half. -/
def shown : CodePoint → Char
  | .char c => c
  | .half _ => Char.ofNat 0xFFFD

/-- The image of a character; a half is its own image. -/
def mapChar (f : Char → List Char) : CodePoint → List CodePoint
  | .char c => (f c).map .char
  | .half offset => [.half offset]

/-- Whether the code point is a half. -/
def isHalf : CodePoint → Bool
  | .char _ => false
  | .half _ => true

end CodePoint

-- ════════════════════════════════════════════════════════════════════════════
-- Texts
-- ════════════════════════════════════════════════════════════════════════════

/-- A sequence of code points. -/
structure Text where
  /-- The characters before the first lone half. -/
  start : String
  /-- Each lone half with the characters that follow it. -/
  rest : List (Fin 2048 × String) := []
  deriving Repr, DecidableEq

namespace Text

/-- A string as a text. -/
def ofString (s : String) : Text := ⟨s, []⟩

instance : Coe String Text := ⟨ofString⟩

instance : Inhabited Text := ⟨""⟩

/-- Characters as a text. -/
def ofChars (cs : List Char) : Text := String.ofList cs

/-- The string that a text without halves is. -/
def plain? (t : Text) : Option String := if t.rest.isEmpty then some t.start else none

/-- Whether the text has no code points. -/
def isEmpty (t : Text) : Bool := t.start.isEmpty && t.rest.isEmpty

/-- The code points of a lone half and the characters that follow it. -/
def runToList (run : Fin 2048 × String) : List CodePoint := .half run.1 :: run.2.toList.map .char

/-- The code points of a text. -/
def toList (t : Text) : List CodePoint := t.start.toList.map .char ++ t.rest.flatMap runToList

/-- The characters before the first lone half. -/
def leadingChars (cs : List CodePoint) : List Char :=
  (cs.takeWhile fun c => !c.isHalf).filterMap CodePoint.char?

/-- Each lone half with the characters that follow it. -/
def runs : List CodePoint → List (Fin 2048 × String)
  | [] => []
  | .char _ :: cs => runs cs
  | .half offset :: cs => (offset, String.ofList (leadingChars cs)) :: runs cs

/-- The text of some code points. -/
def ofList (cs : List CodePoint) : Text := ⟨String.ofList (leadingChars cs), runs cs⟩

/-- One text after another. -/
def append (a b : Text) : Text :=
  match a.rest.getLast? with
  | none => ⟨a.start ++ b.start, b.rest⟩
  | some (offset, s) => ⟨a.start, a.rest.dropLast ++ (offset, s ++ b.start) :: b.rest⟩

instance : Append Text := ⟨append⟩

/-- The number of code points. -/
def length (t : Text) : Nat := t.toList.length

/-- The numbers of the code points. -/
def codes (t : Text) : List Nat := t.toList.map CodePoint.code

/-- The characters of a text, with the replacement character for each half. -/
def shown (t : Text) : List Char := t.toList.map CodePoint.shown

/-- Texts in a row. -/
def concat (ts : List Text) : Text := ts.foldl (· ++ ·) ""

/-- Texts in a row with a separator between them. -/
def joined (separator : Text) : List Text → Text
  | [] => ""
  | t :: ts => ts.foldl (fun joined t => joined ++ separator ++ t) t

-- ════════════════════════════════════════════════════════════════════════════
-- Texts as lists
-- ════════════════════════════════════════════════════════════════════════════

@[simp]
theorem leadingChars_nil : leadingChars [] = [] := rfl

@[simp]
theorem leadingChars_char (c : Char) (cs : List CodePoint) :
    leadingChars (.char c :: cs) = c :: leadingChars cs := by
  simp [leadingChars, CodePoint.isHalf, CodePoint.char?]

@[simp]
theorem leadingChars_half (offset : Fin 2048) (cs : List CodePoint) :
    leadingChars (.half offset :: cs) = [] := by
  simp [leadingChars, CodePoint.isHalf]

/-- The parts of a list of code points together are the list. -/
theorem toList_parts (cs : List CodePoint) :
    (leadingChars cs).map .char ++ (runs cs).flatMap runToList = cs := by
  induction cs with
  | nil => rfl
  | cons c cs ih =>
    cases c with
    | char c => simpa [runs] using ih
    | half offset => simpa [runs, runToList] using ih

/-- The text of some code points has these code points. -/
@[simp]
theorem toList_ofList (cs : List CodePoint) : (ofList cs).toList = cs := by
  simpa [toList, ofList] using toList_parts cs

theorem leadingChars_append (s : List Char) (cs : List CodePoint) :
    leadingChars (s.map .char ++ cs) = s ++ leadingChars cs := by
  induction s with
  | nil => rfl
  | cons c s ih => simp [ih]

theorem runs_append (s : List Char) (cs : List CodePoint) : runs (s.map .char ++ cs) = runs cs := by
  induction s with
  | nil => rfl
  | cons c s ih => simpa [runs] using ih

theorem leadingChars_flatMap (rs : List (Fin 2048 × String)) :
    leadingChars (rs.flatMap runToList) = [] := by
  cases rs <;> simp [runToList]

theorem runs_flatMap (rs : List (Fin 2048 × String)) : runs (rs.flatMap runToList) = rs := by
  induction rs with
  | nil => rfl
  | cons r rs ih =>
    simp [runToList, runs, runs_append, leadingChars_append, leadingChars_flatMap, ih]

/-- A text is the text of its code points. -/
@[simp]
theorem ofList_toList (t : Text) : ofList t.toList = t := by
  simp [ofList, toList, leadingChars_append, runs_append, leadingChars_flatMap, runs_flatMap]

/-- Texts with the same code points are the same. -/
theorem toList_inj {a b : Text} : a.toList = b.toList ↔ a = b :=
  ⟨fun h => by rw [← ofList_toList a, h, ofList_toList], fun h => h ▸ rfl⟩

@[simp]
theorem toList_ofString (s : String) : (ofString s).toList = s.toList.map .char := by
  simp [ofString, toList]

/-- Appending texts appends their code points. -/
@[simp]
theorem toList_append (a b : Text) : (a ++ b).toList = a.toList ++ b.toList := by
  change (append a b).toList = _
  unfold append
  split
  · next h => simp [toList, List.getLast?_eq_none_iff.1 h]
  · next offset s h =>
    obtain ⟨before, h⟩ := List.getLast?_eq_some_iff.1 h
    simp [toList, runToList, h]

/-- Texts in a row have a separator in front of each but the first. -/
theorem toList_joined_cons (separator t : Text) (ts : List Text) :
    (joined separator (t :: ts)).toList =
      t.toList ++ ts.flatMap fun u => separator.toList ++ u.toList := by
  rw [joined]
  induction ts generalizing t with
  | nil => simp
  | cons u ts ih => simp [ih]

theorem eq_empty_of_isEmpty {t : Text} (h : t.isEmpty = true) : t = "" := by
  obtain ⟨start, rest⟩ := t
  simp only [isEmpty, Bool.and_eq_true, String.isEmpty_iff, List.isEmpty_iff] at h
  obtain ⟨rfl, rfl⟩ := h
  rfl

@[simp]
theorem ofString_append (s t : String) : ofString s ++ ofString t = ofString (s ++ t) := rfl

end Text

end FormBasic
