import BrowserSteps.Number

/-!
Scales for spans of time. A wait measures how long it has taken, compares that with its
deadline and chooses its next pause; a scale says how spans are represented and computed
with. One scale computes in binary64 seconds, the other exactly in microseconds.
-/

namespace BrowserSteps

structure TimeScale (τ : Type) where
  ofMicros : Nat → τ
  /-- A limit in seconds as a span; none if it cannot be represented. -/
  limit? : Number → Option τ
  /-- Whether a span has reached another. -/
  reaches : τ → τ → Bool
  sub : τ → τ → τ
  /-- The first of two spans unless the second is shorter. -/
  shorter : τ → τ → τ
  /-- The pause that a span sets, in microseconds. -/
  pause : τ → Nat
  /-- Whole milliseconds, rounded toward zero. -/
  millis : τ → Int
  /-- More microseconds than the span has. -/
  bound : τ → Nat
  /-- The usual pause between two queries, a fiftieth of a second. -/
  interval : τ

namespace TimeScale

/-- Seconds as a pause: none at all for no or negative seconds, else at least one
microsecond, rounded half to even. -/
def pauseOfSeconds (x : Float) : Nat :=
  match Decimal.Binary.ofFloat (x * 1000000) with
  | .finite d =>
    if d.negative || d.mantissa = 0 then 0
    else max 1 (Decimal.roundHalfEven d.ratio.1 d.ratio.2)
  | .infinite false => Nat.pow 2 64
  | _ => 0

/-- Binary64 seconds. -/
def binary : TimeScale Float where
  ofMicros n := secondsOfMicros n
  limit? n := n.toFloat?.map fun x => if 0.0 < x then x else 0.0
  reaches a b := b ≤ a
  sub a b := a - b
  shorter a b := if b < a then b else a
  pause := pauseOfSeconds
  millis x :=
    match Decimal.Binary.ofFloat (x * 1000) with
    | .finite d => d.truncate
    | _ => 0
  bound x :=
    match Decimal.Binary.ofFloat x with
    | .finite d => d.ratio.1 * 1000000 / d.ratio.2 + 2
    | _ => Nat.pow 2 64
  interval := 0.02

/-- Whole microseconds. Limits are whole seconds. -/
def exact : TimeScale Nat where
  ofMicros n := n
  limit? n :=
    match n with
    | .whole n => some (n.toNat * 1000000)
    | .real _ => none
  reaches a b := b ≤ a
  sub a b := a - b
  shorter a b := min a b
  pause n := n
  millis n := (n / 1000 : Nat)
  bound n := n + 2
  interval := 20000

end TimeScale

end BrowserSteps
