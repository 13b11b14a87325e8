/-!
# Binary64 numbers exactly

A finite binary64 number is an integer significand times a power of two. This module takes a float
apart into these two and builds the float nearest to an exact ratio, a tie going to the even
significand, so that every conversion between decimal text, integers and floats can be computed on
natural numbers.

## Main definitions

* `Decoded`, `decode` - the parts of a float
* `roundDiv` - a quotient rounded to the nearest natural number
* `magnitudeBits`, `ofRatio` - the float nearest to a ratio
* `ofDecimal` - the float nearest to a decimal number
-/

namespace FormBasic.Binary64

/-- The parts of a float: a finite one is `± significand · 2 ^ exponent`. -/
inductive Decoded where
  | finite (negative : Bool) (significand : Nat) (exponent : Int)
  | infinite (negative : Bool)
  | nan
  deriving Repr, DecidableEq

/-- Takes a float apart. -/
def decode (x : Float) : Decoded :=
  let bits : Nat := x.toBits.toNat
  let negative := bits / Nat.pow 2 63 == 1
  let exponent : Nat := bits / Nat.pow 2 52 % 2048
  let fraction : Nat := bits % Nat.pow 2 52
  if exponent = 2047 then
    if fraction = 0 then .infinite negative else .nan
  else if exponent = 0 then .finite negative fraction (-1074)
  else .finite negative (Nat.pow 2 52 + fraction) ((exponent : Int) - 1075)

/-- The quotient rounded to the nearest natural number, a tie going to the even one. -/
def roundDiv (num den : Nat) : Nat :=
  let q := num / den
  let r := num % den
  if den < 2 * r ∨ (2 * r = den ∧ q % 2 = 1) then q + 1 else q

/-- The power `2 ^ exponent` as a numerator and a denominator. -/
def powerOfTwo (exponent : Int) : Nat × Nat :=
  (Nat.pow 2 exponent.toNat, Nat.pow 2 (-exponent).toNat)

/-- The bits of an infinite float without its sign. -/
def infinityBits : Nat := 2047 * Nat.pow 2 52

/-- The bits, without the sign, of the float nearest to `num / den`, where a tie goes to the even
significand and too large a ratio to infinity. -/
def magnitudeBits (num den : Nat) : Nat :=
  if num = 0 then 0
  else
    let guess : Int := (num.log2 : Int) - den.log2 - 52
    let unit := powerOfTwo guess
    let exact := if Nat.pow 2 52 * (den * unit.1) ≤ num * unit.2 then guess else guess - 1
    let exponent := max exact (-1074)
    let unit := powerOfTwo exponent
    let significand := roundDiv (num * unit.2) (den * unit.1)
    min ((exponent + 1074).toNat * Nat.pow 2 52 + significand) infinityBits

/-- The float with the given sign and remaining bits. -/
def ofMagnitude (negative : Bool) (bits : Nat) : Float :=
  Float.ofBits (UInt64.ofNat (if negative then Nat.pow 2 63 + bits else bits))

/-- The float that is no number. -/
def notANumber : Float := ofMagnitude false (infinityBits + Nat.pow 2 51)

/-- The float nearest to `± num / den`. -/
def ofRatio (negative : Bool) (num den : Nat) : Float :=
  ofMagnitude negative (magnitudeBits num den)

/-- The float nearest to `± coefficient · 10 ^ exponent`. Numbers far outside the range of floats
are settled by the coefficient's bits, each of which is worth between 0.3 and 0.31 decimal digits,
without computing the power. -/
def ofDecimal (negative : Bool) (coefficient : Nat) (exponent : Int) : Float :=
  let bits : Int := coefficient.log2
  if coefficient = 0 ∨ (bits + 1) * 31 + exponent * 100 < -40000 then ofMagnitude negative 0
  else if 4000 < bits * 3 + exponent * 10 then ofMagnitude negative infinityBits
  else ofRatio negative (coefficient * Nat.pow 10 exponent.toNat) (Nat.pow 10 (-exponent).toNat)

/-- The bits of an integer's nearest float; none when it is infinite. -/
def ofInt? (n : Int) : Option Float :=
  let bits := magnitudeBits n.natAbs 1
  if bits < infinityBits then some (ofMagnitude (n < 0) bits) else none

/-- Rounding keeps a quotient that is exact. -/
theorem roundDiv_mul_self (q : Nat) {den : Nat} (h : 0 < den) : roundDiv (q * den) den = q := by
  unfold roundDiv
  simp only [Nat.mul_div_cancel q h, Nat.mul_mod_left, Nat.mul_zero]
  split
  · next hc => omega
  · rfl

end FormBasic.Binary64
