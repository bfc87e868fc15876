/-!
Binary64 numbers taken apart into whole numbers, so that their decimal texts can be
chosen by exact arithmetic.
-/

namespace BrowserSteps.Decimal

/-- The finite number `±mantissa · 2 ^ exponent`. -/
structure Dyadic where
  negative : Bool
  mantissa : Nat
  exponent : Int
  deriving DecidableEq, Repr

/-- What a binary64 pattern stands for. -/
inductive Binary where
  | finite (value : Dyadic)
  | infinite (negative : Bool)
  | notANumber
  deriving DecidableEq, Repr

/-- Sign, eleven bits of exponent and 52 bits of fraction. An exponent field of zero
has no hidden bit; one of all ones marks infinities and non-numbers. -/
def Binary.ofBits (bits : Nat) : Binary :=
  let negative := bits / Nat.pow 2 63 % 2 == 1
  let field : Nat := bits / Nat.pow 2 52 % Nat.pow 2 11
  let fraction : Nat := bits % Nat.pow 2 52
  if field = 2047 then
    if fraction = 0 then .infinite negative else .notANumber
  else if field = 0 then
    .finite ⟨negative, fraction, -1074⟩
  else
    .finite ⟨negative, Nat.pow 2 52 + fraction, (field : Int) - 1075⟩

def Binary.ofFloat (x : Float) : Binary := .ofBits x.toBits.toNat

namespace Dyadic

/-- Numerator and denominator of the magnitude. -/
def ratio (d : Dyadic) : Nat × Nat :=
  match d.exponent with
  | .ofNat e => (d.mantissa * Nat.pow 2 e, 1)
  | .negSucc e => (d.mantissa, Nat.pow 2 (e + 1))

/-- The whole number it is, if it is one. -/
def toInt? (d : Dyadic) : Option Int :=
  let (num, den) := d.ratio
  if num % den = 0 then
    some (if d.negative then -((num / den : Nat) : Int) else ((num / den : Nat) : Int))
  else none

/-- The whole part, cut toward zero. -/
def truncate (d : Dyadic) : Int :=
  let (num, den) := d.ratio
  if d.negative then -((num / den : Nat) : Int) else ((num / den : Nat) : Int)

end Dyadic

/-- `num / den` to the nearest whole number; a half goes to the even neighbour. -/
def roundHalfEven (num den : Nat) : Nat :=
  let q := num / den
  let r := num % den
  if 2 * r < den then q
  else if den < 2 * r then q + 1
  else if q % 2 = 0 then q else q + 1

/-- The rounded quotient is within half a unit of the exact one. -/
theorem roundHalfEven_near (num den : Nat) (h : 0 < den) :
    2 * (den * roundHalfEven num den) ≤ 2 * num + den ∧
      2 * num ≤ 2 * (den * roundHalfEven num den) + den := by
  have parts := Nat.div_add_mod num den
  have small := Nat.mod_lt num h
  simp only [roundHalfEven]
  repeat' split
  all_goals try rw [Nat.mul_add, Nat.mul_one]
  all_goals generalize den * (num / den) = whole at *
  all_goals omega

end BrowserSteps.Decimal
