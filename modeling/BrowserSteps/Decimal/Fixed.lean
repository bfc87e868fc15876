import BrowserSteps.Decimal.Shortest

/-!
A number with a set count of decimal places. The exact binary value is rounded, and a
half goes to the even neighbour.
-/

namespace BrowserSteps.Decimal

/-- Writes `units / 10 ^ places` with all its places. -/
def placeText (units places : Nat) : String :=
  let digits := toString units
  if places = 0 then digits
  else
    let padded := String.ofList (List.replicate (places + 1 - digits.length) '0') ++ digits
    let whole := padded.length - places
    String.ofList (padded.toList.take whole) ++ "." ++ String.ofList (padded.toList.drop whole)

/-- The text of `x` with `places` decimals. -/
def fixedText (places : Nat) (x : Float) : String :=
  match Binary.ofFloat x with
  | .notANumber => Wording.plain.nan
  | .infinite false => Wording.plain.infinity
  | .infinite true => Wording.plain.negativeInfinity
  | .finite d =>
    let (num, den) := d.ratio
    (if d.negative then "-" else "") ++ placeText (roundHalfEven (num * Nat.pow 10 places) den) places

example : fixedText 0 2.5 = "2" := by decide +kernel
example : fixedText 3 0.0125 = "0.013" := by decide +kernel
example : fixedText 3 (-0.0001) = "-0.000" := by decide +kernel

end BrowserSteps.Decimal
