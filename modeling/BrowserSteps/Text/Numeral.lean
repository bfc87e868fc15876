import BrowserSteps.Text.Blank
import BrowserSteps.Text.Digit

/-!
Numbers as people write them: white space around, a sign, decimal digits of any script,
and single underscores between digits.
-/

namespace BrowserSteps.Text

/-- The longest whole number that is read, in digits. -/
def digitLimit : Nat := 4300

/-- Why a text is no whole number. -/
inductive NumeralError where
  | malformed
  | tooLong (digits : Nat)
  deriving DecidableEq, Repr

/-- What is said of a whole number with too many digits. -/
def longNumberMessage (digits : Nat) : String :=
  "Exceeds the limit (" ++ toString digitLimit ++
    " digits) for integer string conversion: value has " ++ toString digits ++
    " digits; use sys.set_int_max_str_digits() to increase the limit"

/-- Whether a whole number has too many digits to be written. -/
def isLongNumber (n : Int) : Bool := Nat.pow 10 digitLimit ≤ n.natAbs

/-- Why a whole number is not written: it has too many digits. -/
inductive WriteError where
  | tooLong
  deriving DecidableEq, Repr

def WriteError.message : WriteError → String
  | .tooLong => "Exceeds the limit (" ++ toString digitLimit ++
      " digits) for integer string conversion; use sys.set_int_max_str_digits() to increase the limit"

/-- Writes a whole number. -/
def writeInteger (n : Int) : Except WriteError String :=
  if isLongNumber n then .error .tooLong else .ok (toString n)

/-- Digits with single underscores between them, as values. -/
def digitRun? : List Char → Option (List Nat)
  | [] => none
  | [c] => (decimalValue? c).map ([·])
  | c :: '_' :: rest => do
    let d ← decimalValue? c
    let ds ← digitRun? rest
    return d :: ds
  | c :: rest => do
    let d ← decimalValue? c
    let ds ← digitRun? rest
    return d :: ds

/-- The number that a run of digits writes. -/
def ofDigits (digits : List Nat) : Nat := digits.foldl (fun n d => 10 * n + d) 0

/-- Splits a sign off; `true` means minus. -/
def splitSign : List Char → Bool × List Char
  | '-' :: rest => (true, rest)
  | '+' :: rest => (false, rest)
  | rest => (false, rest)

/-- Reads a whole number. -/
def readInteger (s : String) : Except NumeralError Int :=
  let (negative, body) := splitSign (trimBy isWhite s.toList)
  match digitRun? body with
  | none => .error .malformed
  | some digits =>
    if digitLimit < digits.length then .error (.tooLong digits.length)
    else
      let n : Int := ofDigits digits
      .ok (if negative then -n else n)

/-- The nearest binary64 number to `digits · 10 ^ exponent`. A decimal far outside the
range is infinite or zero, whatever its digits. -/
def floatOfDecimal (negative : Bool) (digits : Nat) (exponent : Int) : Float :=
  let size : Int := (Nat.toDigits 10 digits).length
  let magnitude : Float :=
    if digits = 0 then 0.0
    else if 400 < exponent + size then 1.0 / 0.0
    else if exponent + size < -400 then 0.0
    else Float.ofScientific digits (exponent < 0) exponent.natAbs
  if negative then -magnitude else magnitude

/-- An optional run of digits; the empty text is an empty run. -/
private def optionalRun? (s : List Char) : Option (List Nat) :=
  if s.isEmpty then some [] else digitRun? s

/-- The exponent after the mantissa: none at all, or a mark and a signed run of digits. -/
private def exponentOf? : List Char → Option Int
  | [] => some 0
  | _ :: rest =>
    let (down, digits) := splitSign rest
    (digitRun? digits).map fun run =>
      let n : Int := ofDigits run
      if down then -n else n

/-- Reads a decimal with an optional fraction and exponent. -/
def readDecimal? (negative : Bool) (body : List Char) : Option Float := do
  let mantissa := body.takeWhile fun c => c ≠ 'e' && c ≠ 'E'
  let exponent ← exponentOf? (body.drop mantissa.length)
  let whole := mantissa.takeWhile (· ≠ '.')
  let fraction := (mantissa.drop whole.length).drop 1
  let wholeDigits ← optionalRun? whole
  let fractionDigits ← optionalRun? fraction
  if wholeDigits.isEmpty && fractionDigits.isEmpty then none
  else some (floatOfDecimal negative (ofDigits (wholeDigits ++ fractionDigits))
    (exponent - (fractionDigits.length : Nat)))

/-- Reads a number, or one of the words for infinity and for no number at all. -/
def readFloat? (s : String) : Option Float :=
  let (negative, body) := splitSign (trimBy isWhite s.toList)
  let lowered := String.ofList (body.map Char.toLower)
  if lowered = "inf" || lowered = "infinity" then
    some (if negative then -(1.0 / 0.0) else 1.0 / 0.0)
  else if lowered = "nan" then some (0.0 / 0.0)
  else readDecimal? negative body

end BrowserSteps.Text
