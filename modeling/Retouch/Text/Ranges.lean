/-!
# Character ranges

A character class is a list of closed ranges of code points. `inRanges` decides membership.
-/

namespace Retouch.Text

/-- Whether `c` lies in one of the closed ranges of `table`. -/
def inRanges (table : List (Nat × Nat)) (c : Char) : Bool :=
  table.any fun range => range.1 ≤ c.toNat && c.toNat ≤ range.2

end Retouch.Text
