/-! Sets of code points, given by the places where membership changes. -/
namespace PoolSwap

/-- Where runs of members and others change, in ascending order; the first run is of others. -/
structure CodePointSet where
  changes : Array Nat

namespace CodePointSet

/-- The number of changes at or below `n`, between two positions of the table. -/
def rank (s : CodePointSet) (n : Nat) : Nat → Nat → Nat → Nat
  | 0, low, _ => low
  | fuel + 1, low, high =>
    if low < high then
      let middle := (low + high) / 2
      if s.changes.getD middle 0 ≤ n then s.rank n fuel (middle + 1) high
      else s.rank n fuel low middle
    else low

def contains (s : CodePointSet) (c : Char) : Bool :=
  s.rank c.toNat s.changes.size 0 s.changes.size % 2 = 1

end CodePointSet
end PoolSwap
