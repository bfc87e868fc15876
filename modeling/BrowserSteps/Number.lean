import BrowserSteps.Decimal.Fixed
import BrowserSteps.Json.Basic
import BrowserSteps.Text.Numeral

/-!
Numbers that are either whole and exact or binary64, as settings and measurements are
given, and durations between instants counted in microseconds.
-/

namespace BrowserSteps

inductive Number where
  | whole (n : Int)
  | real (x : Float)
  deriving Inhabited

/-- The binary64 number nearest to a whole number; none beyond the largest. -/
def floatOfInt? (n : Int) : Option Float :=
  let x := Text.floatOfDecimal (n < 0) n.natAbs 0
  if x.isFinite then some x else none

/-- Microseconds as seconds: the binary64 number nearest to the quotient. -/
def secondsOfMicros (micros : Int) : Float := Text.floatOfDecimal (micros < 0) micros.natAbs (-6)

/-- Milliseconds as seconds. -/
def secondsOfMillis (millis : Int) : Float := Text.floatOfDecimal (millis < 0) millis.natAbs (-3)

/-- Microseconds as milliseconds, by way of seconds. -/
def millisOfMicros (micros : Int) : Float := secondsOfMicros micros * 1000

namespace Number

def toJson : Number → Json
  | .whole n => .int n
  | .real x => .float x

def ofJson? : Json → Option Number
  | .int n => some (.whole n)
  | .float x => some (.real x)
  | _ => none

/-- The number as binary64, if it is not too large for that. -/
def toFloat? : Number → Option Float
  | .whole n => floatOfInt? n
  | .real x => some x

/-- The text with a set count of decimal places. -/
def fixedText (places : Nat) : Number → String
  | .whole n => Decimal.fixedText places ((floatOfInt? n).getD 0)
  | .real x => Decimal.fixedText places x

end Number

end BrowserSteps
