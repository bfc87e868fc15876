import BrowserSteps.Decimal.Binary

/-!
The shortest decimal text of a binary64 number: the fewest digits that read back as the
same number, and of those the nearest. From `10 ^ -4` up to `10 ^ 16` the digits are
written out around a point, beyond that with an exponent of at least two digits.
-/

namespace BrowserSteps.Decimal

/-- A decimal `digits · 10 ^ exponent`. -/
structure Scaled where
  digits : Nat
  exponent : Int
  deriving DecidableEq, Repr

/-- The texts of the three values that have no digits. -/
structure Wording where
  nan : String
  infinity : String
  negativeInfinity : String

/-- The words of plain text. -/
def Wording.plain : Wording := ⟨"nan", "inf", "-inf"⟩

/-- The words of JSON texts. -/
def Wording.json : Wording := ⟨"NaN", "Infinity", "-Infinity"⟩

/-- How many digits the decimal text of a number has. -/
def digitCount (n : Nat) : Nat := (Nat.toDigits 10 n).length

/-- The exponent of the leading digit of `num / den`, for `num` and `den` not zero. -/
def leadingExponent (num den : Nat) : Int :=
  if den ≤ num then (digitCount (num / den) : Int) - 1
  else -(digitCount ((den + num - 1) / num - 1) : Int)

/-- Compares `a · 10 ^ s` with `b · 2 ^ t` by cross-multiplying. -/
def compareScaled (a : Nat) (s : Int) (b : Nat) (t : Int) : Ordering :=
  let left := a * Nat.pow 10 s.toNat * Nat.pow 2 (-t).toNat
  let right := b * Nat.pow 2 t.toNat * Nat.pow 10 (-s).toNat
  compare left right

/-- The reals that round to a number reach from halfway to the neighbour below to halfway
to the neighbour above, in quarters of its last binary place; both ends belong exactly
when the mantissa is even. Below a power of two the neighbour is half as far. -/
def Dyadic.readsBack (d : Dyadic) (s : Scaled) : Bool :=
  let below := if d.mantissa = Nat.pow 2 52 ∧ d.exponent ≠ -1074 then 1 else 2
  let lower := compareScaled s.digits s.exponent (4 * d.mantissa - below) (d.exponent - 2)
  let upper := compareScaled s.digits s.exponent (4 * d.mantissa + 2) (d.exponent - 2)
  if d.mantissa % 2 = 0 then lower ≠ .lt && upper ≠ .gt
  else lower = .gt && upper = .lt

/-- The better of the number's two neighbours among the decimals of `count` digits. -/
def Dyadic.onGrid? (d : Dyadic) (lead : Int) (count : Nat) : Option Scaled :=
  let step := lead - (count - 1 : Nat)
  let (num, den) := d.ratio
  let scaledNum := num * Nat.pow 10 (-step).toNat
  let scaledDen := den * Nat.pow 10 step.toNat
  let floor := scaledNum / scaledDen
  let near := roundHalfEven scaledNum scaledDen
  let far := if near = floor then floor + 1 else floor
  if d.readsBack ⟨near, step⟩ then some ⟨near, step⟩
  else if d.readsBack ⟨far, step⟩ then some ⟨far, step⟩
  else none

/-- Drops zeros at the end of the digits. The bound is the number of digits. -/
def Scaled.trim (s : Scaled) : Scaled :=
  go s.digits s.exponent (digitCount s.digits)
where
  go (digits : Nat) (exponent : Int) : Nat → Scaled
    | 0 => ⟨digits, exponent⟩
    | bound + 1 =>
      if digits ≠ 0 ∧ digits % 10 = 0 then go (digits / 10) (exponent + 1) bound
      else ⟨digits, exponent⟩

/-- The fewest digits that read back; seventeen always do. -/
def Dyadic.shortest (d : Dyadic) : Scaled :=
  if d.mantissa = 0 then ⟨0, 0⟩
  else
    let (num, den) := d.ratio
    let lead := leadingExponent num den
    match (List.range 17).findSome? (fun n => d.onGrid? lead (n + 1)) with
    | some s => s.trim
    | none => ⟨0, 0⟩

private def zeros (n : Nat) : String := String.ofList (List.replicate n '0')

/-- Lays digits out around a point, or with an exponent outside the usual range. -/
def Scaled.layout (s : Scaled) : String :=
  let text := toString s.digits
  let count : Int := text.length
  let lead := s.exponent + count - 1
  if s.digits = 0 then "0.0"
  else if -4 ≤ lead ∧ lead < 16 then
    if 0 ≤ s.exponent then text ++ zeros s.exponent.toNat ++ ".0"
    else if 0 ≤ lead then
      let whole := (lead + 1).toNat
      String.ofList (text.toList.take whole) ++ "." ++ String.ofList (text.toList.drop whole)
    else "0." ++ zeros (-lead - 1).toNat ++ text
  else
    let head := String.ofList (text.toList.take 1)
    let tail := String.ofList (text.toList.drop 1)
    let size := toString lead.natAbs
    head ++ (if tail.isEmpty then "" else "." ++ tail) ++ "e" ++
      (if lead < 0 then "-" else "+") ++ (if size.length < 2 then "0" ++ size else size)

/-- The text of a binary64 number; a zero keeps its sign. -/
def shortestText (words : Wording) (x : Float) : String :=
  match Binary.ofFloat x with
  | .notANumber => words.nan
  | .infinite false => words.infinity
  | .infinite true => words.negativeInfinity
  | .finite d => (if d.negative then "-" else "") ++ d.shortest.layout

example : shortestText .plain 0.1 = "0.1" := by decide +kernel
example : shortestText .plain 1e16 = "1e+16" := by decide +kernel
example : shortestText .plain 1.5e-7 = "1.5e-07" := by decide +kernel
example : shortestText .plain 5e-324 = "5e-324" := by decide +kernel

end BrowserSteps.Decimal
