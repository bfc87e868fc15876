import BrowserSteps.Files.Path
import BrowserSteps.Number
import BrowserSteps.Result.Log
import BrowserSteps.Step.Basic

/-!
What a run leaves behind: an outcome for every step that was executed, the measurements,
the log and the place of the screenshots.
-/

namespace BrowserSteps

/-- A measurement: when it was taken and the seconds since its start marker. -/
structure Sample where
  time : DateTime
  seconds : Number
  deriving Inhabited

/-- How a step ended. -/
inductive Status where
  | passed
  | failed
  | other (word : String)
  deriving DecidableEq, Repr, Inhabited

namespace Status

def word : Status → String
  | .passed => "passed"
  | .failed => "failed"
  | .other word => word

def ofWord : String → Status
  | "passed" => .passed
  | "failed" => .failed
  | word => .other word

end Status

/-- One execution of a step. -/
structure Outcome where
  index : Int
  name : String
  action : String
  selector : String := ""
  startedAt : Option DateTime := none
  finishedAt : Option DateTime := none
  status : Status := .passed
  /-- The lines that the step added to the log. -/
  messages : List String := []
  deriving DecidableEq, Repr, Inhabited

/-- Milliseconds between two instants; zero if one of them is missing. -/
def elapsedMillis (startedAt finishedAt : Option DateTime) : Float :=
  match startedAt, finishedAt with
  | some start, some finish => millisOfMicros (finish.since start)
  | _, _ => 0.0

def Outcome.durationMillis (o : Outcome) : Float := elapsedMillis o.startedAt o.finishedAt

/-- The result of a run. A step that is executed several times has several outcomes. -/
structure RunResult where
  tag : String := ""
  startedAt : Option DateTime := none
  finishedAt : Option DateTime := none
  samples : List (Int × Sample) := []
  log : Log := {}
  outcomes : List Outcome := []
  artifacts : Option Path := none
  deriving Inhabited

namespace RunResult

def note (r : RunResult) (entry : String) : RunResult := { r with log := r.log.append entry }

def record (r : RunResult) (o : Outcome) : RunResult := { r with outcomes := r.outcomes ++ [o] }

/-- The sample of a slot. -/
def sample? (r : RunResult) (slot : Int) : Option Sample := r.samples.lookup slot

/-- Writes a sample over an earlier one of its slot. -/
def putSample (r : RunResult) (slot : Int) (sample : Sample) : RunResult :=
  { r with samples := (slot, sample) :: r.samples.filter (·.1 ≠ slot) }

def measureTime (r : RunResult) (slot : Int) : Option Number := (r.sample? slot).map (·.seconds)

def sampleTime (r : RunResult) (slot : Int) : Option DateTime := (r.sample? slot).map (·.time)

/-- A run failed if one of its steps did. -/
def status (r : RunResult) : Status :=
  if r.outcomes.any (·.status = .failed) then .failed else .passed

def durationMillis (r : RunResult) : Float := elapsedMillis r.startedAt r.finishedAt

/-- A sample is found in its slot. -/
@[simp] theorem sample?_putSample_self (r : RunResult) (slot : Int) (sample : Sample) :
    (r.putSample slot sample).sample? slot = some sample := by
  simp [putSample, sample?]

/-- The other slots keep their samples. -/
@[simp] theorem sample?_putSample_of_ne (r : RunResult) {slot other : Int} (sample : Sample)
    (h : other ≠ slot) : (r.putSample slot sample).sample? other = r.sample? other := by
  have hfilter (samples : List (Int × Sample)) :
      (samples.filter (·.1 ≠ slot)).lookup other = samples.lookup other := by
    induction samples with
    | nil => rfl
    | cons pair rest ih =>
      obtain ⟨key, value⟩ := pair
      by_cases hkey : key = slot
      · subst hkey
        simp only [ne_eq, not_true, decide_false, Bool.false_eq_true, not_false_eq_true,
          List.filter_cons_of_neg, List.lookup_cons, beq_eq_false_iff_ne.mpr h]
        exact ih
      · simp only [ne_eq, hkey, not_false_eq_true, decide_true, List.filter_cons_of_pos,
          List.lookup_cons]
        rw [← ih]
  simp only [putSample, sample?, List.lookup_cons, beq_eq_false_iff_ne.mpr h, hfilter]

end RunResult

/-- How many outcomes there are, and how many of them failed. -/
structure Summary where
  total : Nat
  failed : Nat
  deriving DecidableEq, Repr

def Summary.passed (s : Summary) : Nat := s.total - s.failed

def summarize (outcomes : List Outcome) : Summary :=
  ⟨outcomes.length, (outcomes.filter (·.status = .failed)).length⟩

end BrowserSteps
