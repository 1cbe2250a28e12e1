/-!
# Ranges of characters

A class of characters is a list of closed ranges of code points in ascending order.
-/

namespace Registrar.Text

/-- Whether `n` lies in one of the closed ranges. -/
def inRanges (ranges : List (Nat × Nat)) (n : Nat) : Bool :=
  ranges.any fun r => r.1 ≤ n && n ≤ r.2

end Registrar.Text
