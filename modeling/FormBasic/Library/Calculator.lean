import FormBasic.Fault
import FormBasic.Grammar.Program
import FormBasic.Value.Coerce

/-!
# The calculator

Arithmetic expressions typed by the user. Only numbers, parentheses, the minus sign and the
arithmetic operators are allowed; everything else is an invalid expression, and so is an operation
that has no result.

## Main definitions

* `arithmetic` - one arithmetic operator
* `calculate` - the value of an arithmetic tree
* `evaluateText` - the value of an arithmetic expression given as text
-/

namespace FormBasic.Library

/-- The result of an arithmetic operator, not yet normalised; none for the other operators. The
divisor of a division is assumed not to be zero. -/
def arithmetic? : BinaryOp → Option (Number → Number → Except Refusal Number)
  | .add => some Number.add
  | .sub => some Number.sub
  | .mul => some Number.mul
  | .pow => some Number.power
  | .div => some Number.div
  | .intDiv => some fun a b => do return .int (← (← a.div b).floor)
  | .mod => some Number.remainder
  | _ => none

/-- Whether the operator divides. -/
def divides : BinaryOp → Bool
  | .div | .intDiv | .mod => true
  | _ => false

/-- The value of an arithmetic tree. -/
def calculate : Expr → Except RuntimeCause Number
  | .number n => .ok n
  | .unary .neg e => do return (← calculate e).neg
  | .binary op left right => do
    let a ← calculate left
    let b ← calculate right
    match arithmetic? op with
    | none => .error .invalidExpression
    | some f =>
      if divides op && b.isZero then .error .divisionByZero
      else (f a b).mapError fun _ => .invalidExpression
  | _ => .error .invalidExpression

/-- The value of an arithmetic expression given as text; an empty text counts as zero. -/
def evaluateText (v : Value) : Except Fault Value := do
  let source ← (v.display).mapError .refused
  let trimmed := Text.trim source
  if trimmed.isEmpty then return .int 0
  else
    match Expr.parse trimmed with
    | .error (.malformed _) => .error (.runtime .invalidExpression)
    | .error (.refused r) => .error (.refused r)
    | .ok tree =>
      match calculate tree with
      | .ok n => return .ofNumber n.normalize
      | .error cause => .error (.runtime cause)

end FormBasic.Library
