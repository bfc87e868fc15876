/-!
Sets of characters given by ascending ranges of code points.
-/

namespace BrowserSteps.Text

/-- Ascending, disjoint ranges of code points, both ends included. -/
abbrev Ranges := Array (Nat × Nat)

/-- The number of ranges that start at or below a code point. The bound is the width of
the window, which halves with every look. -/
def Ranges.countBelow (ranges : Ranges) (code : Nat) : Nat :=
  go 0 ranges.size ranges.size
where
  go (low high : Nat) : Nat → Nat
    | 0 => low
    | bound + 1 =>
      if low < high then
        let middle := (low + high) / 2
        match ranges[middle]? with
        | some (first, _) =>
          if first ≤ code then go (middle + 1) high bound else go low middle bound
        | none => low
      else low

/-- Whether a code point lies in one of the ranges. -/
def Ranges.contains (ranges : Ranges) (code : Nat) : Bool :=
  match ranges.countBelow code with
  | 0 => false
  | n + 1 =>
    match ranges[n]? with
    | some (_, last) => code ≤ last
    | none => false

end BrowserSteps.Text
