import FormBasic.Number.Basic

/-!
# Durations

A number of seconds as an exact ratio, for a clock on which instants can be compared without
rounding.

## Main definitions

* `Number.toRat?` - the exact value of a number
-/

namespace FormBasic.Number

/-- The exact value of a number; infinities and NaN have none. -/
def toRat? : Number → Option Rat
  | .int n => some n
  | .float x =>
    match Binary64.decode x with
    | .finite negative significand exponent =>
      let unit := Binary64.powerOfTwo exponent
      some (mkRat (signedInt negative (significand * unit.1)) unit.2)
    | _ => none

end FormBasic.Number
