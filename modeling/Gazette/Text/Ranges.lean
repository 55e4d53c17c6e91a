/-!
# Sets of characters as ranges

A set of code points is kept as a list of inclusive ranges in increasing order. Membership looks
at each range in turn.
-/

namespace Gazette.Text

abbrev Ranges := List (Nat × Nat)

namespace Ranges

def contains (ranges : Ranges) (code : Nat) : Bool :=
  ranges.any fun range => range.1 ≤ code && code ≤ range.2

theorem contains_iff (ranges : Ranges) (code : Nat) :
    ranges.contains code = true ↔ ∃ range ∈ ranges, range.1 ≤ code ∧ code ≤ range.2 := by
  simp [contains]

end Ranges

end Gazette.Text
