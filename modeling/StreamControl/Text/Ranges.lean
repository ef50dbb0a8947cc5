/-!
# Ranges of characters

Classes of characters are tables of ranges of their code points, in ascending order.
-/

namespace StreamControl.Text

/-- Whether a character lies in one of some ranges of code points. -/
def inRanges (ranges : Array (Nat × Nat)) (c : Char) : Bool :=
  ranges.any fun r => r.1 ≤ c.toNat && c.toNat ≤ r.2

end StreamControl.Text
