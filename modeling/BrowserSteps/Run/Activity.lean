import BrowserSteps.Run.Handler

/-!
Running activities in a world. The deadline of the world can cut one at any pause.
-/

namespace BrowserSteps

/-- How an activity came to its end. -/
inductive Exit where
  | verdict (v : Verdict)
  /-- The deadline came; the entries are what was left to say. -/
  | cut (entries : List String)
  /-- The bound on the turns of several waits was too small. -/
  | unfinished
  deriving Repr

namespace Activity

variable {σ : Type}

/-- Rests up to an instant, or until a cancellation that comes before it. -/
def restUntil (time : Nat) (ended woken : Verdict) (interrupted : String) (w : World σ) :
    Exit × World σ :=
  if w.cancelled then (.verdict woken, w)
  else
    let (wake, verdict) := match w.cancelAt.filter (· < time) with
      | some cancel => (cancel, woken)
      | none => (time, ended)
    match w.wait wake with
    | (true, w) => (.verdict verdict, w)
    | (false, w) => (.cut [interrupted], w)

/-- Runs an activity. The bound is on the turns of several waits. -/
def run (bound : Nat) : Activity σ → World σ → Exit × World σ
  | .alone routine, w =>
    match routine.runAlone w with
    | (some v, w) => (.verdict v, w)
    | (none, w) => (.cut [], w)
  | .together workers judge selectors, w =>
    match Routine.runTogether bound workers w with
    | (.ended results, w) => (.verdict (judge w.cancelled (Wait.collect selectors results)), w)
    | (.cut, w) => (.cut [], w)
    | (.unfinished, w) => (.unfinished, w)
  | .rest 0 ended _ _, w => (.verdict ended, w)
  | .rest (micros + 1) ended woken interrupted, w =>
    restUntil (w.clock + (micros + 1)) ended woken interrupted w

end Activity

end BrowserSteps
