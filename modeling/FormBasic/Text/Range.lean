/-!
# Ranges of code points

Character classes above ASCII are tables of ranges. This module reads such a table.
-/

namespace FormBasic.Text

/-- Whether the code point of `c` lies in one of the closed `ranges`. -/
def within (ranges : List (Nat × Nat)) (c : Char) : Bool :=
  ranges.any fun r => r.1 ≤ c.toNat && c.toNat ≤ r.2

end FormBasic.Text
