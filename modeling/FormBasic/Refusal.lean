import FormBasic.Text.Quoted

/-!
# Refused computations

A value function may refuse its arguments: a square root of a negative number, an integer that no
float can hold, a text cut by the empty separator. The causes are listed here, with their wording.

## Main definitions

* `Refusal` - why a value function gives no result
* `Refusal.message` - the wording
-/

namespace FormBasic

/-- Why a value function gives no result. -/
inductive Refusal where
  /-- The function is not defined at its argument. -/
  | mathDomain
  /-- The result is too large for a float. -/
  | mathRange
  | infinityToInteger
  | nanToInteger
  /-- An integer operand is too large for a float. -/
  | integerTooLarge
  /-- The quotient of two integers is too large for a float. -/
  | quotientTooLarge
  /-- A rounded float is too large for a float. -/
  | roundedTooLarge
  /-- No character has this code. -/
  | characterOutOfRange
  /-- The character code does not fit 32 bits. -/
  | characterCodeTooLarge
  /-- A text cannot be split at the empty text. -/
  | emptySeparator
  /-- An integer has too many digits to be written. -/
  | integerTextTooLong
  /-- A written integer has too many digits to be read. -/
  | tooManyDigits (count : Nat)
  /-- The text is no integer. -/
  | notAnInteger (text : Text)
  /-- The text is no decimal number. -/
  | notADecimal (text : Text)
  /-- A list position does not fit 64 bits. -/
  | positionTooLarge
  /-- A repetition count does not fit 64 bits. -/
  | repetitionTooLarge
  deriving Repr, DecidableEq

/-- The most digits that an integer may have when it is written or read. -/
def digitLimit : Nat := 4300

/-- The most characters of a quoted text that a refused integer shows. -/
def quoteLimit : Nat := 200

/-- The wording of a refusal. -/
def Refusal.message : Refusal → Text
  | .mathDomain => "math domain error"
  | .mathRange => "math range error"
  | .infinityToInteger => "cannot convert float infinity to integer"
  | .nanToInteger => "cannot convert float NaN to integer"
  | .integerTooLarge => "int too large to convert to float"
  | .quotientTooLarge => "integer division result too large for a float"
  | .roundedTooLarge => "rounded value too large to represent"
  | .characterOutOfRange => "chr() arg not in range(0x110000)"
  | .characterCodeTooLarge => "Python int too large to convert to C int"
  | .emptySeparator => "empty separator"
  | .integerTextTooLong =>
    "Exceeds the limit (4300 digits) for integer string conversion; " ++
      "use sys.set_int_max_str_digits() to increase the limit"
  | .tooManyDigits count =>
    "Exceeds the limit (4300 digits) for integer string conversion: value has " ++
      toString count ++ " digits; use sys.set_int_max_str_digits() to increase the limit"
  | .notAnInteger text =>
    "invalid literal for int() with base 10: " ++
      Text.ofChars ((Text.quoted text).toList.take quoteLimit)
  | .notADecimal text => "could not convert string to float: " ++ Text.quoted text
  | .positionTooLarge => "Python int too large to convert to C ssize_t"
  | .repetitionTooLarge => "cannot fit 'int' into an index-sized integer"

/-- Whether the refusal is about a number that is too large for its place, rather than about an
argument that has no meaning. -/
def Refusal.isOverflow : Refusal → Bool
  | .mathRange | .infinityToInteger | .integerTooLarge | .quotientTooLarge | .roundedTooLarge
  | .characterCodeTooLarge | .positionTooLarge | .repetitionTooLarge => true
  | _ => false

end FormBasic
