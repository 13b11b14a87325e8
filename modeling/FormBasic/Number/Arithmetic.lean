import FormBasic.Number.Basic

/-!
# Arithmetic

The operations on numbers. Integers are added, subtracted and multiplied exactly; as soon as a float
takes part both operands become floats. Division always gives a float, for two integers the one
nearest to the exact quotient. Operations that have no finite answer are refused.

## Main definitions

* `Number.add`, `sub`, `mul`, `div`, `neg`, `abs` - the basic operations
* `Number.remainder` - the remainder of a division toward zero
* `Number.power` - exponentiation of floats
* `Number.roundTo` - rounding to a number of places
* `Number.sqrt`, `sin`, `cos`, `tan`, `log`, `exp` - elementary functions
-/

namespace FormBasic.Number

-- ════════════════════════════════════════════════════════════════════════════
-- Basic operations
-- ════════════════════════════════════════════════════════════════════════════

/-- An operation that is exact on integers and otherwise works on floats. -/
def combine (onInts : Int → Int → Int) (onFloats : Float → Float → Float) :
    Number → Number → Except Refusal Number
  | .int m, .int n => .ok (.int (onInts m n))
  | a, b => do
    let x ← a.toFloat
    let y ← b.toFloat
    return .float (onFloats x y)

/-- The sum. -/
def add : Number → Number → Except Refusal Number := combine (· + ·) (· + ·)

/-- The difference. -/
def sub : Number → Number → Except Refusal Number := combine (· - ·) (· - ·)

/-- The product. -/
def mul : Number → Number → Except Refusal Number := combine (· * ·) (· * ·)

@[simp]
theorem add_int (m n : Int) : add (.int m) (.int n) = .ok (.int (m + n)) := rfl

@[simp]
theorem sub_int (m n : Int) : sub (.int m) (.int n) = .ok (.int (m - n)) := rfl

@[simp]
theorem mul_int (m n : Int) : mul (.int m) (.int n) = .ok (.int (m * n)) := rfl

/-- The number with its sign changed. -/
def neg : Number → Number
  | .int n => .int (-n)
  | .float x => .float (-x)

/-- The number without its sign. -/
def abs : Number → Number
  | .int n => .int n.natAbs
  | .float x => .float x.abs

/-- The quotient by a divisor that is not zero. -/
def div : Number → Number → Except Refusal Number
  | .int m, .int n =>
    let bits := Binary64.magnitudeBits m.natAbs n.natAbs
    if bits < Binary64.infinityBits then
      .ok (.float (Binary64.ofMagnitude ((m < 0) != (n < 0)) bits))
    else .error .quotientTooLarge
  | a, b => do
    let x ← a.toFloat
    let y ← b.toFloat
    return .float (x / y)

-- ════════════════════════════════════════════════════════════════════════════
-- Remainder and powers
-- ════════════════════════════════════════════════════════════════════════════

/-- The remainder of a division of floats toward zero; it has the sign of the dividend. -/
def remainderFloat (x y : Float) : Except Refusal Float :=
  match Binary64.decode x, Binary64.decode y with
  | .nan, _ => .ok x
  | _, .nan => .ok y
  | .infinite _, _ => .error .mathDomain
  | _, .infinite _ => .ok x
  | .finite negative significand exponent, .finite _ significand' exponent' =>
    if significand' = 0 then .error .mathDomain
    else
      let least := min exponent exponent'
      let dividend := significand * Nat.pow 2 (exponent - least).toNat
      let divisor := significand' * Nat.pow 2 (exponent' - least).toNat
      let unit := Binary64.powerOfTwo least
      .ok (Binary64.ofRatio negative (dividend % divisor * unit.1) unit.2)

/-- The remainder of a division toward zero. -/
def remainder (a b : Number) : Except Refusal Number := do
  let x ← a.toFloat
  let y ← b.toFloat
  return .float (← remainderFloat x y)

/-- Whether a float is an odd integer. -/
def isOddFloat (x : Float) : Bool :=
  match whole? x with
  | some n => n % 2 != 0
  | none => false

/-- A power with a base or an exponent that is infinite or NaN. -/
def powerAtLimit (x y : Float) : Float :=
  if x.isNaN then if y == 0 then 1 else x
  else if y.isNaN then if x == 1 then 1 else y
  else if x.isInf then
    if y > 0 then if isOddFloat y then x else x.abs
    else if y == 0 then 1
    else if isOddFloat y && x < 0 then -0.0 else 0
  else if x.abs == 1 then 1
  else if y > 0 && x.abs > 1 then y
  else if y < 0 && x.abs < 1 then -y
  else 0

/-- The power of two floats. -/
def powerFloat (x y : Float) : Except Refusal Float :=
  if x.isFinite && y.isFinite then
    let r := Float.pow x y
    if r.isNaN then .error .mathDomain
    else if r.isInf then .error (if x == 0 then .mathDomain else .mathRange)
    else .ok r
  else .ok (powerAtLimit x y)

/-- The first number raised to the second. -/
def power (a b : Number) : Except Refusal Number := do
  let x ← a.toFloat
  let y ← b.toFloat
  return .float (← powerFloat x y)

-- ════════════════════════════════════════════════════════════════════════════
-- Rounding to places
-- ════════════════════════════════════════════════════════════════════════════

/-- A float rounded to the nearest number with `places` places after the point, a tie of the exact
value going to the even one. A float has no digits beyond 323 places, and all of them lie within
308 places before the point. -/
def roundFloat (x : Float) (places : Int) : Except Refusal Float :=
  match Binary64.decode x with
  | .finite negative significand exponent =>
    if 323 < places then .ok x
    else if places < -308 then .ok (Binary64.ofMagnitude negative 0)
    else
      let units := Binary64.scaledTo places significand exponent
      let r := Binary64.ofDecimal negative units (-places)
      if r.isFinite then .ok r else .error .roundedTooLarge
  | _ => .ok x

/-- A number rounded, as a float, to a number of places; a whole result is an integer. -/
def roundTo (a : Number) (places : Number) : Except Refusal Number := do
  let x ← a.toFloat
  let n ← places.truncate
  return normalize (.float (← roundFloat x n))

/-- A number rounded, as a float, to the nearest integer. -/
def roundToInt (a : Number) : Except Refusal Int := do
  let x ← a.toFloat
  nearest (.float x)

-- ════════════════════════════════════════════════════════════════════════════
-- Elementary functions
-- ════════════════════════════════════════════════════════════════════════════

/-- The square root. -/
def sqrt (a : Number) : Except Refusal Number := do
  let x ← a.toFloat
  if x < 0 then .error .mathDomain else return .float x.sqrt

/-- A periodic function, which has no value at infinity. -/
def periodic (f : Float → Float) (a : Number) : Except Refusal Number := do
  let x ← a.toFloat
  if x.isInf then .error .mathDomain else return .float (f x)

/-- The sine. -/
def sin : Number → Except Refusal Number := periodic Float.sin

/-- The cosine. -/
def cos : Number → Except Refusal Number := periodic Float.cos

/-- The tangent. -/
def tan : Number → Except Refusal Number := periodic Float.tan

/-- A positive integer as a float of at least a half and below one, times a power of two. An integer
whose nearest such float would be one itself becomes a half of the next power. -/
def halfOpenScale (n : Nat) : Float × Nat :=
  let twos := n.log2 + 1
  let scaled := Binary64.ofRatio false n (Nat.pow 2 twos)
  if scaled == 1 then (Binary64.ofRatio false 1 2, twos + 1) else (scaled, twos)

/-- The natural logarithm of a positive integer: one that no float can hold is first scaled by a
power of two. -/
def logInt (n : Nat) : Float :=
  match Binary64.ofInt? n with
  | some x => x.log
  | none =>
    let (scaled, twos) := halfOpenScale n
    scaled.log + Float.log 2 * Binary64.ofRatio false twos 1

/-- The natural logarithm. -/
def log : Number → Except Refusal Number
  | .int n => if n ≤ 0 then .error .mathDomain else .ok (.float (logInt n.toNat))
  | .float x => if x ≤ 0 then .error .mathDomain else .ok (.float x.log)

/-- The exponential function. -/
def exp (a : Number) : Except Refusal Number := do
  let x ← a.toFloat
  let r := x.exp
  if x.isFinite && r.isInf then .error .mathRange else return .float r

/-- The greater of two numbers, the first where they are equal or not comparable. -/
def greater (a b : Number) : Number := if less a b then b else a

/-- The lesser of two numbers, the first where they are equal or not comparable. -/
def lesser (a b : Number) : Number := if less b a then b else a

end FormBasic.Number
