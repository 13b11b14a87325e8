import FormBasic.Number.Shortest
import FormBasic.Refusal

/-!
# Numbers

A number is an integer of any size or a binary64 float. The two are compared by their exact values,
never by way of a rounded conversion.

## Main definitions

* `Number` - an integer or a float
* `Number.compare?` - the order of exact values; a NaN is not comparable
* `Number.normalize` - a whole float becomes an integer
* `Number.floor`, `ceiling`, `truncate`, `nearest` - the four ways to an integer
* `Number.toFloat` - the nearest float, if it is finite
-/

namespace FormBasic

/-- An integer of any size or a float. -/
inductive Number where
  | int (n : Int)
  | float (x : Float)

namespace Number

-- ════════════════════════════════════════════════════════════════════════════
-- Order
-- ════════════════════════════════════════════════════════════════════════════

/-- A sign and a natural number as an integer. -/
def signedInt (negative : Bool) (n : Nat) : Int :=
  if negative then -(n : Int) else n

/-- The order of an integer and a float, by exact value. -/
def compareIntFloat (n : Int) (x : Float) : Option Ordering :=
  match Binary64.decode x with
  | .nan => none
  | .infinite negative => some (if negative then .gt else .lt)
  | .finite negative significand exponent =>
    let unit := Binary64.powerOfTwo exponent
    some (compare (n * unit.2) (signedInt negative significand * unit.1))

/-- The order of two floats. -/
def compareFloats (x y : Float) : Option Ordering :=
  if x < y then some .lt else if y < x then some .gt else if x == y then some .eq else none

/-- The order of two numbers, by exact value; none when one of them is NaN. -/
def compare? : Number → Number → Option Ordering
  | .int m, .int n => some (compare m n)
  | .int m, .float y => compareIntFloat m y
  | .float x, .int n => (compareIntFloat n x).map Ordering.swap
  | .float x, .float y => compareFloats x y

/-- Whether two numbers have the same value. -/
def same (a b : Number) : Bool := compare? a b == some .eq

/-- Whether the first number is smaller. -/
def less (a b : Number) : Bool := compare? a b == some .lt

/-- Whether the first number is smaller or has the same value. -/
def atMost (a b : Number) : Bool := less a b || same a b

/-- Whether the number is zero. -/
def isZero (a : Number) : Bool := same a (.int 0)

@[simp]
theorem compare?_int (m n : Int) : compare? (.int m) (.int n) = some (compare m n) := rfl

@[simp]
theorem same_int (m n : Int) : same (.int m) (.int n) = (m == n) := by
  simp only [same, compare?_int, compare, compareOfLessAndEq]
  by_cases h : m < n
  · have : m ≠ n := by omega
    simp [h, this]
  · by_cases h' : m = n <;> simp [h, h']

@[simp]
theorem less_int (m n : Int) : less (.int m) (.int n) = decide (m < n) := by
  simp only [less, compare?_int, compare, compareOfLessAndEq]
  by_cases h : m < n
  · simp [h]
  · by_cases h' : m = n <;> simp [h, h']

@[simp]
theorem atMost_int (m n : Int) : atMost (.int m) (.int n) = decide (m ≤ n) := by
  simp only [atMost, less_int, same_int]
  by_cases h : m < n
  · have : m ≤ n := by omega
    simp [h, this]
  · by_cases h' : m = n
    · simp [h']
    · have : ¬ m ≤ n := by omega
      simp [h, h', this]

-- ════════════════════════════════════════════════════════════════════════════
-- Integers
-- ════════════════════════════════════════════════════════════════════════════

/-- The value of a float that is a whole number. -/
def whole? (x : Float) : Option Int :=
  match Binary64.decode x with
  | .finite negative significand exponent =>
    let unit := Binary64.powerOfTwo exponent
    if significand * unit.1 % unit.2 = 0 then
      some (signedInt negative (significand * unit.1 / unit.2))
    else none
  | _ => none

/-- A whole float becomes an integer; every other number stays as it is. -/
def normalize : Number → Number
  | .int n => .int n
  | .float x =>
    match whole? x with
    | some n => .int n
    | none => .float x

/-- Applies a rounding rule for `± num / den` to a number. -/
def toInteger (rule : Bool → Nat → Nat → Int) : Number → Except Refusal Int
  | .int n => .ok n
  | .float x =>
    match Binary64.decode x with
    | .nan => .error .nanToInteger
    | .infinite _ => .error .infinityToInteger
    | .finite negative significand exponent =>
      let unit := Binary64.powerOfTwo exponent
      .ok (rule negative (significand * unit.1) unit.2)

/-- The integer part, toward zero. -/
def truncate : Number → Except Refusal Int :=
  toInteger fun negative num den => signedInt negative (num / den)

/-- The greatest integer that is not larger. -/
def floor : Number → Except Refusal Int :=
  toInteger fun negative num den => (signedInt negative num).fdiv den

/-- The least integer that is not smaller. -/
def ceiling : Number → Except Refusal Int :=
  toInteger fun negative num den => -(signedInt (!negative) num).fdiv den

/-- The nearest integer, a tie going to the even one. -/
def nearest : Number → Except Refusal Int :=
  toInteger fun negative num den => signedInt negative (Binary64.roundDiv num den)

/-- The nearest float. -/
def toFloat : Number → Except Refusal Float
  | .float x => .ok x
  | .int n =>
    match Binary64.ofInt? n with
    | some x => .ok x
    | none => .error .integerTooLarge

@[simp]
theorem normalize_int (n : Int) : normalize (.int n) = .int n := rfl

@[simp]
theorem truncate_int (n : Int) : truncate (.int n) = .ok n := rfl

/-- Decimal digits of an integer. -/
def integerDigits (n : Int) : List Char :=
  Binary64.signed (n < 0) (Nat.toDigits 10 n.natAbs)

/-- The text of an integer; refused when it has more digits than the limit. -/
def integerText (n : Int) : Except Refusal Text :=
  if n.natAbs < Nat.pow 10 digitLimit then .ok (.ofChars (integerDigits n))
  else .error .integerTextTooLong

/-- The text of a number. -/
def text : Number → Except Refusal Text
  | .int n => integerText n
  | .float x => .ok (Binary64.write x)

end Number

end FormBasic
