/-!
Sets of scalar values given as sorted, disjoint, inclusive ranges, and membership by bisection.
-/

set_option autoImplicit false

namespace Highlighter.Unicode

abbrev Ranges := Array (Nat × Nat)

/-- Search the ranges with indices from `low` up to but not including `high`. -/
def Ranges.bisect (ranges : Ranges) (code : Nat) : Nat → Nat → Nat → Bool
  | 0, _, _ => false
  | fuel + 1, low, high =>
    if low < high then
      let middle := (low + high) / 2
      match ranges[middle]? with
      | none => false
      | some (first, last) =>
        if code < first then ranges.bisect code fuel low middle
        else if last < code then ranges.bisect code fuel (middle + 1) high
        else true
    else false

/-- Every step halves the interval, so as many steps as there are ranges are more than enough. -/
def Ranges.contains (ranges : Ranges) (c : Char) : Bool :=
  ranges.bisect c.toNat ranges.size 0 ranges.size

end Highlighter.Unicode
