/-!
# Ranges of code points

A character class is a table of closed ranges of code points in ascending order.  Membership is
decided by bisection, so that a table of several hundred ranges costs about ten comparisons.
-/

namespace Markflow.Text

/-- Closed ranges of code points, in ascending order and without overlap. -/
abbrev CodeRanges := Array (Nat × Nat)

namespace CodeRanges

/-- Bisection between the ranges at positions `low` (included) and `high` (excluded). -/
def bisect (table : CodeRanges) (code : Nat) : (fuel low high : Nat) → Bool
  | 0, _, _ => false
  | fuel + 1, low, high =>
    if low < high then
      let middle := (low + high) / 2
      match table[middle]? with
      | none => false
      | some (first, last) =>
        if code < first then bisect table code fuel low middle
        else if last < code then bisect table code fuel (middle + 1) high
        else true
    else false

/-- Whether one of the ranges holds the code point. -/
def holds (table : CodeRanges) (code : Nat) : Bool :=
  bisect table code (table.size + 1) 0 table.size

end CodeRanges

end Markflow.Text
