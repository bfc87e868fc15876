import BrowserSteps.Result.Basic

/-!
Measurements between markers. A start marker leaves its time pending; a finish marker uses
the pending time up, whether or not it can write a sample. All slots share the one pending
time.
-/

namespace BrowserSteps

/-- Why a finish marker wrote no sample. -/
inductive MarkerFault where
  | noStart
  | unknownSlot
  deriving DecidableEq, Repr

def MarkerFault.message : MarkerFault → String
  | .noStart => "The end marker before start marker"
  | .unknownSlot => "invalid measure value, should be one of 1 or 2 or 3"

namespace Measure

/-- Whole milliseconds between two instants, rounded down. -/
def millisBetween (start finish : DateTime) : Int := (finish.since start).fdiv 1000

/-- The sample of a finish marker. -/
def sample (start now : DateTime) : Sample :=
  ⟨now, .real (secondsOfMillis (millisBetween start now))⟩

/-- What a finish marker measures at a time, given the pending start. -/
def finish (pending : Option DateTime) (slot : Int) (now : DateTime) :
    Except MarkerFault Sample :=
  match pending with
  | none => .error .noStart
  | some start => if slot ∈ measureSlots then .ok (sample start now) else .error .unknownSlot

/-- Processes the finish marker of a step: writes a sample, or an entry that says why there
is none. The pending start is used up either way. -/
def settle (pending : Option DateTime) (name : String) (slot : Int) (now : DateTime)
    (r : RunResult) : Option Sample × RunResult :=
  match finish pending slot now with
  | .ok sample => (some sample, r.putSample slot sample)
  | .error fault => (none, r.note (Log.entry now name fault.message))

end Measure

end BrowserSteps
