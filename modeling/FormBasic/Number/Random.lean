import FormBasic.Number.Binary64

/-!
# Random numbers

A linear congruential generator. Its state is one natural number, so every run with the same seed
gives the same numbers.

## Main definitions

* `Random` - the generator
* `Random.next` - the next number in the unit interval
-/

namespace FormBasic

/-- A generator of random numbers. -/
structure Random where
  seed : Nat := 1
  deriving Repr, DecidableEq

namespace Random

/-- The generator after one step. -/
def advance (r : Random) : Random :=
  ⟨(r.seed * 6364136223846793005 + 1442695040888963407) % Nat.pow 2 64⟩

/-- The numerator, over `2 ^ 53`, of the generator's number. -/
def numerator (r : Random) : Nat := r.seed / Nat.pow 2 11 % Nat.pow 2 53

/-- The next number, at least zero and below one. -/
def next (r : Random) : Float × Random :=
  let r := r.advance
  (Binary64.ofRatio false r.numerator (Nat.pow 2 53), r)

/-- The generator's number is below one. -/
theorem numerator_lt (r : Random) : r.numerator < Nat.pow 2 53 := Nat.mod_lt _ (by decide)

end Random

end FormBasic
