import FormBasic.Script.Call

/-!
# Evaluation of expressions

Expressions are evaluated from left to right, both sides of every operator included. Arithmetic that
has no result is reported and counts as zero. A call evaluates its arguments first and then finds
out what it calls.

## Main definitions

* `Script.applyBinary`, `Script.applyUnary` - the operators
* `Script.eval` - expressions
* `Script.evalAll` - argument lists
-/

namespace FormBasic.Script

-- ════════════════════════════════════════════════════════════════════════════
-- Operators
-- ════════════════════════════════════════════════════════════════════════════

/-- The diagnosis of an arithmetic operation that has no result. -/
def arithmeticTrouble : BinaryOp → Text
  | .pow => "Invalid exponentiation"
  | _ => "Arithmetic overflow"

/-- Applies an arithmetic operator to the numbers that both sides stand for. -/
def applyArithmetic (line : Line) (op : BinaryOp)
    (f : Number → Number → Except Refusal Number) (left right : Value) : Script Value := do
  let b := right.toNumber
  if Library.divides op && b.isZero then
    report (RuntimeCause.message .divisionByZero) line
    return .int 0
  else
    match f left.toNumber b with
    | .ok n => return .ofNumber n.normalize
    | .error _ =>
      report (arithmeticTrouble op) line
      return .int 0

/-- Applies an operator between two values. -/
def applyBinary (line : Line) (op : BinaryOp) (left right : Value) : Script Value :=
  match Library.arithmetic? op with
  | some f => applyArithmetic line op f left right
  | none =>
    match op with
    | .concat => do
      let l ← display left
      let r ← display right
      return .text (l ++ r)
    | .eq => pure (.bool (left.looselyEqual right))
    | .ne => pure (.bool !(left.looselyEqual right))
    | .lt => pure (.bool (Value.ordered .less left right))
    | .gt => pure (.bool (Value.ordered .greater left right))
    | .le => pure (.bool (Value.ordered .atMost left right))
    | .ge => pure (.bool (Value.ordered .atLeast left right))
    | .and => pure (.bool (left.isTruthy && right.isTruthy))
    | .or => pure (.bool (left.isTruthy || right.isTruthy))
    | op => throw (.runtimeAt line (.unknownBinary op.text))

/-- Applies an operator before a value. -/
def applyUnary (line : Line) (op : UnaryOp) (operand : Value) : Script Value :=
  match op with
  | .neg => pure (.ofNumber operand.toNumber.neg.normalize)
  | .not => pure (.bool !operand.isTruthy)
  | .unknown text => throw (.runtimeAt line (.unknownUnary text))

-- ════════════════════════════════════════════════════════════════════════════
-- Members
-- ════════════════════════════════════════════════════════════════════════════

/-- Reads a member of an object expression: a property of a component, a constant of a static class,
or a member of the expression's value. -/
def evalMember (object : Expr) (name : Text) (value : Script Value) : Script Value := do
  let w ← world
  match w.component? object with
  | some component => lift (w.property component name)
  | none =>
    match w.staticClass? object with
    | some className =>
      return (Library.classConstant? className (Text.word name)).getD .nothing
    | none => readMember (← value) name

/-- Calls the method of a list property if the object expression is one. -/
def callOnList? (object : Expr) (method : String) (args : List Value) : Script (Option Value) := do
  match object with
  | .member owner property =>
    match (← world).component? owner with
    | some component => callList? component property method args
    | none => return none
  | _ => return none

/-- Calls a method of an object expression: of a list property, a static class, a component, the
form, or of the expression's value, whichever it is first. -/
def callMethod (line : Line) (object : Expr) (name : Text) (args : List Value)
    (value : Script Value) : Script Value := do
  let method := Text.word name
  match ← callOnList? object method args with
  | some result => return result
  | none =>
    let w ← world
    match w.staticClass? object, w.component? object, object with
    | some className, _, _ => callClass line className method args
    | none, some component, _ => callComponent component name args
    | none, none, .ident owner =>
      if owner = selfName then
        if method = "close" then stop
        return .nothing
      else callMember (← value) name args
    | none, none, _ => callMember (← value) name args

-- ════════════════════════════════════════════════════════════════════════════
-- Expressions
-- ════════════════════════════════════════════════════════════════════════════

mutual

/-- The value of an expression in a statement of the given line. -/
def eval (line : Line) : Expr → Script Value
  | .number n => pure (.ofNumber n)
  | .string s => pure (.text s)
  | .boolean b => pure (.bool b)
  | .nothing => pure .nothing
  | .ident name => do return (← world).identifier name
  | .member object name => evalMember object name (eval line object)
  | .index object key => do
    let container ← eval line object
    let key ← eval line key
    index container key
  | .call (.member object name) args => do
    let args ← evalAll line args
    callMethod line object name args (eval line object)
  | .call (.ident name) args => do
    let args ← evalAll line args
    callNamed line name args
  | .call target args => do
    let args ← evalAll line args
    indexed (← eval line target) args
  | .binary op left right => do
    let l ← eval line left
    let r ← eval line right
    applyBinary line op l r
  | .unary op operand => do
    applyUnary line op (← eval line operand)
  | .alien kind => throw (.runtimeAt line (.unknownExpression kind))
termination_by structural e => e

/-- The values of an argument list. -/
def evalAll (line : Line) : List Expr → Script (List Value)
  | [] => pure []
  | e :: es => do
    let value ← eval line e
    let values ← evalAll line es
    return value :: values
termination_by structural es => es

end

end FormBasic.Script
