import FormBasic.Number.Binary64

/-!
# The text of a float

A float is written with the fewest decimal digits that read back as the same float; of several such
numbers the nearest is taken. Small and large magnitudes are written with an exponent, the others
positionally.

## Main definitions

* `Gap` - the numbers that round to a given float
* `shortest` - the fewest digits that read back
* `Layout` - where positional writing ends and how an exponent looks
* `write` - the text of a float
* `writeFixed` - a float with a fixed number of places
-/

namespace FormBasic.Binary64

-- ════════════════════════════════════════════════════════════════════════════
-- Digits
-- ════════════════════════════════════════════════════════════════════════════

/-- The reals that round to a float `value / scale`: those between `low / scale` and `high / scale`,
ends included when `closed`. -/
structure Gap where
  low : Nat
  value : Nat
  high : Nat
  scale : Nat
  closed : Bool

/-- The gap around `significand · 2 ^ exponent`. Below a power of two the spacing halves. -/
def Gap.around (significand : Nat) (exponent : Int) : Gap :=
  let unit := powerOfTwo (exponent - 2)
  let below := if significand = Nat.pow 2 52 ∧ -1074 < exponent then 1 else 2
  { low := (4 * significand - below) * unit.1
    value := 4 * significand * unit.1
    high := (4 * significand + 2) * unit.1
    scale := unit.2
    closed := significand % 2 == 0 }

/-- Whether `candidate · 10 ^ power` lies in the gap. -/
def Gap.contains (gap : Gap) (power : Int) (candidate : Nat) : Bool :=
  let point := candidate * Nat.pow 10 power.toNat * gap.scale
  let unit := Nat.pow 10 (-power).toNat
  if gap.closed then gap.low * unit ≤ point && point ≤ gap.high * unit
  else gap.low * unit < point && point < gap.high * unit

/-- The multiple of `10 ^ power` in the gap that is nearest to its value, if there is one. Only the
value's two neighbours among the multiples need a look. -/
def Gap.pick? (gap : Gap) (power : Int) : Option Nat :=
  let unit := Nat.pow 10 (-power).toNat
  let step := Nat.pow 10 power.toNat * gap.scale
  let lower := gap.value * unit / step
  let upper := lower + 1
  match gap.contains power lower, gap.contains power upper with
  | true, true =>
    let twice := 2 * (gap.value * unit)
    let middle := (lower + upper) * step
    some (if twice < middle then lower else if middle < twice then upper
      else if lower % 2 = 0 then lower else upper)
  | true, false => some lower
  | false, true => some upper
  | false, false => none

/-- Tries ever finer powers of ten, at most `tries` of them. -/
def Gap.search (gap : Gap) : (tries : Nat) → (power : Int) → Nat × Int
  | 0, power =>
    (gap.value * Nat.pow 10 (-power).toNat / (Nat.pow 10 power.toNat * gap.scale), power)
  | tries + 1, power =>
    match gap.pick? power with
    | some digits => (digits, power)
    | none => gap.search tries (power - 1)

/-- Moves trailing zeros of a coefficient into its exponent, at most `fuel` of them. -/
def stripZeros : (fuel : Nat) → Nat → Int → Nat × Int
  | 0, digits, power => (digits, power)
  | fuel + 1, digits, power =>
    if digits % 10 = 0 ∧ digits ≠ 0 then stripZeros fuel (digits / 10) (power + 1)
    else (digits, power)

/-- Number of decimal digits of a natural number; zero has one. -/
def decimalLength (n : Nat) : Nat :=
  (Nat.toDigits 10 n).length

/-- Exponent of the leading decimal digit of `significand · 2 ^ exponent`. -/
def leadingPower (significand : Nat) (exponent : Int) : Int :=
  let unit := powerOfTwo exponent
  (decimalLength (significand * Nat.pow 10 350 * unit.1 / unit.2) : Int) - 351

/-- The fewest digits that read back as `significand · 2 ^ exponent`, as a coefficient without
trailing zeros and a power of ten. Seventeen digits always read back. -/
def shortest (significand : Nat) (exponent : Int) : Nat × Int :=
  let (digits, power) :=
    (Gap.around significand exponent).search 17 (leadingPower significand exponent)
  stripZeros 18 digits power

-- ════════════════════════════════════════════════════════════════════════════
-- Layout
-- ════════════════════════════════════════════════════════════════════════════

/-- How the digits of a float are laid out. -/
structure Layout where
  /-- Least exponent of the leading digit that is written positionally. -/
  least : Int
  /-- First exponent of the leading digit that is no longer written positionally. -/
  limit : Int
  /-- Least number of digits of a written exponent. -/
  exponentWidth : Nat

/-- Values are written positionally from `0.0001` up to `10 ^ 16`, and an exponent has at least two
digits. -/
def Layout.standard : Layout := ⟨-4, 16, 2⟩

/-- Pads a list of digits with zeros at the front. -/
def padLeft (width : Nat) (digits : List Char) : List Char :=
  List.replicate (width - digits.length) '0' ++ digits

/-- The digits of a number with a point before the last `places` of them. -/
def withPoint (digits : List Char) (places : Nat) : List Char :=
  let padded := padLeft (places + 1) digits
  padded.take (padded.length - places) ++ '.' :: padded.drop (padded.length - places)

/-- A coefficient and a power of ten written out. -/
def Layout.write (layout : Layout) (coefficient : Nat) (power : Int) : List Char :=
  let digits := Nat.toDigits 10 coefficient
  let leading : Int := power + digits.length - 1
  if coefficient = 0 then "0.0".toList
  else if layout.least ≤ leading ∧ leading < layout.limit then
    if power < 0 then withPoint digits (-power).toNat
    else digits ++ List.replicate power.toNat '0' ++ ['.', '0']
  else
    let mantissa := match digits with
      | [] => []
      | [d] => [d]
      | d :: ds => d :: '.' :: ds
    mantissa ++ 'e' :: (if leading < 0 then '-' else '+') ::
      padLeft layout.exponentWidth (Nat.toDigits 10 leading.natAbs)

/-- A minus sign in front of a negative number's digits. -/
def signed (negative : Bool) (digits : List Char) : List Char :=
  if negative then '-' :: digits else digits

/-- The text of a float. -/
def write (x : Float) : String :=
  match decode x with
  | .nan => "nan"
  | .infinite negative => String.ofList (signed negative "inf".toList)
  | .finite negative significand exponent =>
    let (coefficient, power) := shortest significand exponent
    String.ofList (signed negative (Layout.standard.write coefficient power))

/-- The multiple of `10 ^ -places` nearest to `significand · 2 ^ exponent`, counted in such units; a
tie goes to the even one. -/
def scaledTo (places : Int) (significand : Nat) (exponent : Int) : Nat :=
  let unit := powerOfTwo exponent
  roundDiv (significand * unit.1 * Nat.pow 10 places.toNat) (unit.2 * Nat.pow 10 (-places).toNat)

/-- A float with exactly `places` places after the point. -/
def writeFixed (places : Nat) (x : Float) : String :=
  match decode x with
  | .nan => "nan"
  | .infinite negative => String.ofList (signed negative "inf".toList)
  | .finite negative significand exponent =>
    let units := scaledTo places significand exponent
    String.ofList (signed negative (withPoint (Nat.toDigits 10 units) places))

end FormBasic.Binary64
