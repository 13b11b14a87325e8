import FormBasic.Number.Arithmetic
import FormBasic.Number.Decimal
import FormBasic.Text.Case
import FormBasic.Value.Display
import FormBasic.Value.Equal

/-!
# Coercions

How values are taken as numbers, truth values and texts. A text counts as a number when it reads as
one after trimming, and as zero otherwise. Comparison with `=` coerces a text to a number when the
other side is one; the order comparisons always compare numbers.

## Main definitions

* `Value.toNumber`, `Value.isNumeric` - values as numbers
* `Value.isTruthy`, `Value.toBool` - values as truth values
* `Value.looselyEqual`, `Value.ordered` - the comparisons of scripts
* `Value.toInt` - a value rounded to an integer
-/

namespace FormBasic.Value

/-- The number that a text stands for, if it stands for one. -/
def numberOfText? (s : Text) : Option Number := Number.readNumber? (Text.trim s)

/-- Whether the value is a number, a truth value, or a text that reads as a number. -/
def isNumeric : Value → Bool
  | .bool _ | .int _ | .float _ | .nan _ => true
  | .text s => !(Text.trim s).isEmpty && (numberOfText? s).isSome
  | _ => false

/-- The value as a number; values that are not numeric count as zero. -/
def toNumber : Value → Number
  | .bool b => .int (if b then 1 else 0)
  | .int n => .int n
  | .float x => .float x
  | .nan _ => .float Binary64.notANumber
  | .text s => (numberOfText? s).getD (.int 0)
  | _ => .int 0

/-- Whether the value counts as true. -/
def isTruthy : Value → Bool
  | .bool b => b
  | .int n => n != 0
  | .float x => !(Number.float x).isZero
  | .text s => !s.isEmpty
  | .nothing => false
  | _ => true

/-- Equality with coercion: a text equals a number when it reads as that number, and numbers are
compared by value alone. -/
def looselyEqual (left right : Value) : Bool :=
  match left, right with
  | .nothing, .nothing => true
  | .nothing, _ => false
  | _, .nothing => false
  | .text s, right =>
    match right.number? with
    | some n => isNumeric (.text s) && (toNumber (.text s)).same n
    | none => (Value.text s).equal right
  | left, .text t =>
    match left.number? with
    | some n => isNumeric (.text t) && (toNumber (.text t)).same n
    | none => left.equal (.text t)
  | left, right =>
    match left.number?, right.number? with
    | some m, some n => m.same n
    | _, _ => left.equal right

/-- The order comparisons of scripts. -/
inductive Order where
  | less | greater | atMost | atLeast
  deriving Repr, DecidableEq

/-- Whether the comparison holds between two numbers. -/
def Order.holds : Order → Number → Number → Bool
  | .less, a, b => a.less b
  | .greater, a, b => b.less a
  | .atMost, a, b => a.atMost b
  | .atLeast, a, b => b.atMost a

/-- Compares the numeric values of both sides. -/
def ordered (order : Order) (left right : Value) : Bool :=
  order.holds left.toNumber right.toNumber

/-- The value as a number rounded to an integer by way of the nearest float, a tie going to the even
integer. -/
def toInt (v : Value) : Except Refusal Int := v.toNumber.roundToInt

/-- The value as a truth value: the words `true` and `false` in any letter case, else numeric values
by their number, else whether the value counts as true. -/
def toBool : Value → Bool
  | .text s =>
    let word := Text.lower (Text.trim s)
    if word = "true" then true
    else if word = "false" then false
    else if isNumeric (.text s) then isTruthy (ofNumber (toNumber (.text s)))
    else isTruthy (.text s)
  | v => if isNumeric v then isTruthy (ofNumber (toNumber v)) else isTruthy v

/-- The value as a position or a count: its number without the fraction. -/
def toPosition (v : Value) : Except Refusal Int := v.toNumber.truncate

end FormBasic.Value
