import FormBasic.Number.Basic
import FormBasic.Text.Blank
import FormBasic.Text.Digit

/-!
# Written numbers

How texts are read as numbers. A written integer is a sign and decimal digits of any script; a
written decimal has a point and an exponent as well, or is one of the words for infinity and NaN. In
both, single underscores may stand between digits, and blanks may stand around the whole.

## Main definitions

* `readInteger` - a text as an integer
* `readDecimal` - a text as a float
* `readNumber?` - a text as an integer or else as a finite float
* `leadingNumber?` - the number that a text starts with
-/

namespace FormBasic.Number

-- ════════════════════════════════════════════════════════════════════════════
-- Digits with separators
-- ════════════════════════════════════════════════════════════════════════════

/-- The text between a number's margins. -/
def trimMargins (cs : List Char) : List Char :=
  Text.dropWhileEnd Text.isNumberMargin (cs.dropWhile Text.isNumberMargin)

/-- A decimal digit of any script as an ASCII digit; every other character stays as it is. -/
def asciiDigit (c : Char) : Char :=
  match Text.digitValue? c with
  | some d => Nat.digitChar d
  | none => c

/-- Removes the underscores from a text in which each of them stands between two digits. -/
def dropSeparators? : List Char → Option (List Char)
  | [] => some []
  | ['_'] => none
  | '_' :: _ :: _ => none
  | c :: '_' :: d :: cs =>
    if Text.isAsciiDigit c && Text.isAsciiDigit d then
      (dropSeparators? (d :: cs)).map (c :: ·)
    else none
  | c :: cs => (dropSeparators? cs).map (c :: ·)

/-- The value of a list of ASCII digits, one digit after the other. -/
def digitsFold (cs : List Char) : Nat :=
  cs.foldl (fun n c => 10 * n + (c.toNat - '0'.toNat)) 0

/-- The value of a list of ASCII digits, which is cut in halves `level` times. -/
def digitsSplit : (level : Nat) → List Char → Nat
  | 0, cs => digitsFold cs
  | level + 1, cs =>
    let first := cs.take (cs.length / 2)
    let second := cs.drop (cs.length / 2)
    digitsSplit level first * Nat.pow 10 second.length + digitsSplit level second

/-- The value of a list of ASCII digits; a long one is cut into pieces. -/
def digitsValue (cs : List Char) : Nat := digitsSplit (cs.length / 64).log2 cs

theorem foldl_digits (cs : List Char) (n : Nat) :
    cs.foldl (fun n c => 10 * n + (c.toNat - '0'.toNat)) n =
      n * Nat.pow 10 cs.length + digitsFold cs := by
  unfold digitsFold
  induction cs generalizing n with
  | nil => simp
  | cons c cs ih =>
    rw [List.foldl_cons, List.foldl_cons, ih, ih (10 * 0 + _), List.length_cons]
    simp only [Nat.pow_eq, Nat.pow_succ]
    grind

/-- The digits of a first part count as many tens as a second part has digits. -/
theorem digitsFold_append (xs ys : List Char) :
    digitsFold (xs ++ ys) = digitsFold xs * Nat.pow 10 ys.length + digitsFold ys := by
  rw [digitsFold, List.foldl_append, foldl_digits]
  rfl

theorem digitsSplit_eq (level : Nat) (cs : List Char) : digitsSplit level cs = digitsFold cs := by
  induction level generalizing cs with
  | zero => rfl
  | succ level ih => rw [digitsSplit, ih, ih, ← digitsFold_append, List.take_append_drop]

/-- Cutting does not change the value of digits. -/
theorem digitsValue_eq (cs : List Char) : digitsValue cs = digitsFold cs := digitsSplit_eq _ cs

/-- Splits off a sign: whether it is a minus, and what follows. -/
def takeSign : List Char → Bool × List Char
  | '-' :: cs => (true, cs)
  | '+' :: cs => (false, cs)
  | cs => (false, cs)

-- ════════════════════════════════════════════════════════════════════════════
-- Integers
-- ════════════════════════════════════════════════════════════════════════════

/-- Whether the character can stand in the digits of a written integer. -/
def isDigitOrSeparator (c : Char) : Bool := Text.isAsciiDigit c || c == '_'

/-- The sign and the digits that a written integer starts with, and what follows them; none when an
underscore does not stand between two digits. -/
def integerParts? (s : Text) : Option (Bool × List Char × List Char) := do
  let (negative, body) := takeSign ((trimMargins s.shown).map asciiDigit)
  let digits ← dropSeparators? (body.takeWhile isDigitOrSeparator)
  return (negative, digits, body.dropWhile isDigitOrSeparator)

/-- Reads a text as an integer. Too many digits are refused before what follows them is looked
at. -/
def readInteger (s : Text) : Except Refusal Int :=
  match integerParts? s with
  | none => .error (.notAnInteger s)
  | some (negative, digits, rest) =>
    if digitLimit < digits.length then .error (.tooManyDigits digits.length)
    else if digits.isEmpty || !rest.isEmpty then .error (.notAnInteger s)
    else .ok (signedInt negative (digitsValue digits))

-- ════════════════════════════════════════════════════════════════════════════
-- Decimals
-- ════════════════════════════════════════════════════════════════════════════

/-- Reads the exponent at the start of a text that follows a number's digits: its value, zero when
there is none, and what remains. -/
def takeExponent : List Char → Int × List Char
  | e :: cs =>
    if e == 'e' || e == 'E' then
      let (negative, body) := takeSign cs
      let digits := body.takeWhile Text.isAsciiDigit
      if digits.isEmpty then (0, e :: cs)
      else (signedInt negative (digitsValue digits), body.dropWhile Text.isAsciiDigit)
    else (0, e :: cs)
  | [] => (0, [])

/-- Reads an unsigned decimal at the start of a text: coefficient, power of ten and what remains. -/
def takeDecimal? (cs : List Char) : Option (Nat × Int × List Char) :=
  let whole := cs.takeWhile Text.isAsciiDigit
  let rest := cs.dropWhile Text.isAsciiDigit
  let (places, rest) := match rest with
    | '.' :: ds => (ds.takeWhile Text.isAsciiDigit, ds.dropWhile Text.isAsciiDigit)
    | ds => ([], ds)
  if whole.isEmpty && places.isEmpty then none
  else
    let (exponent, rest) := takeExponent rest
    some (digitsValue (whole ++ places), exponent - places.length, rest)

/-- The words for the numbers that have no digits. -/
def namedFloat? (negative : Bool) (cs : List Char) : Option Float :=
  let word := String.ofList (cs.map Char.toLower)
  if word == "inf" || word == "infinity" then
    some (Binary64.ofMagnitude negative Binary64.infinityBits)
  else if word == "nan" then
    some Binary64.notANumber
  else none

/-- Reads a text as a float; none when it is not a written number. -/
def readDecimal? (s : Text) : Option Float := do
  let body ← dropSeparators? ((trimMargins s.shown).map asciiDigit)
  let (negative, unsigned) := takeSign body
  match takeDecimal? unsigned with
  | some (coefficient, power, []) => some (Binary64.ofDecimal negative coefficient power)
  | _ => namedFloat? negative unsigned

/-- Reads a text as a float. -/
def readDecimal (s : Text) : Except Refusal Float :=
  match readDecimal? s with
  | some x => .ok x
  | none => .error (.notADecimal s)

/-- Reads a text as an integer, or else as a finite float, of which a whole one is an integer. -/
def readNumber? (s : Text) : Option Number :=
  match readInteger s with
  | .ok n => some (.int n)
  | .error _ =>
    match readDecimal? s with
    | some x => if x.isFinite then some (normalize (.float x)) else none
    | none => none

/-- The number that a text starts with, after blanks and a sign. -/
def leadingNumber? (s : Text) : Option Number := do
  let (negative, body) := takeSign (s.shown.dropWhile Text.isBlank)
  let (coefficient, power, _) ← takeDecimal? (body.map asciiDigit)
  return normalize (.float (Binary64.ofDecimal negative coefficient power))

end FormBasic.Number
