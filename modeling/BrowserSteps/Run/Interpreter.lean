import BrowserSteps.Result.Measure
import BrowserSteps.Run.Activity
import BrowserSteps.Run.Capture
import BrowserSteps.Run.Settings

/-!
Running step lists. Steps are executed one after the other, from the first on, unless a
step jumps. For each one the order is: start marker, activity, finish marker, screenshot,
outcome. A run ends when no step is next, when a step stops it, when it finds itself
cancelled before a step, or when the deadline cuts it.
-/

namespace BrowserSteps.Run

variable {σ : Type}

/-- What a run depends on and does not change. -/
structure Env (σ : Type) where
  session : Session σ
  registry : Registry (Handler σ)
  settings : RunSettings := {}
  /-- The instant at which the clock of the world shows zero. -/
  base : DateTime
  /-- The bound on the turns of several waits. -/
  turns : Nat

/-- Runs with all actions in a session. -/
def Env.full {τ : Type} (scale : TimeScale τ) (session : Session σ) (settings : RunSettings)
    (base : DateTime) (turns : Nat) : Env σ :=
  { session, registry := .full (Handler.ofAction ⟨scale, session⟩), settings, base, turns }

/-- What a run changes. -/
structure State (σ : Type) where
  world : World σ
  files : FileTree
  /-- Where screenshots go, once that has been decided. -/
  directory : Option Path := none
  /-- The time of a start marker that no finish marker has used up. -/
  pending : Option DateTime := none
  result : RunResult := {}
  /-- The index of the next step. -/
  next : Nat := 0

namespace State

/-- The time by the clock of the world. -/
def now (env : Env σ) (s : State σ) : DateTime := env.base.add s.world.clock

/-- Adds an entry to the log. -/
def note (env : Env σ) (name message : String) (s : State σ) : State σ :=
  { s with result := s.result.note (Log.entry (s.now env) name message) }

/-- Adds entries to the log. -/
def noteAll (env : Env σ) (name : String) (messages : List String) (s : State σ) : State σ :=
  messages.foldl (fun s message => s.note env name message) s

/-- Records an outcome. -/
def record (o : Outcome) (s : State σ) : State σ := { s with result := s.result.record o }

end State

/-- The activity of a step. What is not registered cannot be run. -/
def activity (env : Env σ) (step : Step) : Activity σ :=
  let refused : Activity σ := .alone (.done (.failure step Handler.invalidAction))
  if step.action = .invalid then refused
  else
    match env.registry.get? step.action with
    | some handler => handler step
    | none => refused

/-- How a part of a step ended: with an answer, or by the deadline. -/
inductive Part (α : Type) where
  | done (value : α)
  | cut

/-- Takes a screenshot and writes it into its file. -/
def saveScreenshot (env : Env σ) (name : String) (s : State σ) :
    Part (Except Failure Path) × State σ :=
  match s.directory with
  | none => (.done (.error .noRunDirectory), s)
  | some directory =>
    let path := Capture.screenshotPath directory name (s.now env)
    match env.session.screenshot.runAlone s.world with
    | (none, world) => (.cut, { s with world })
    | (some (.error e), world) => (.done (.error e), { s with world })
    | (some (.ok bytes), world) =>
      match s.files.writeBytes path bytes with
      | .ok files => (.done (.ok path), { s with world, files })
      | .error e => (.done (.error (.file e)), { s with world })

/-- Takes the screenshot of a step; an entry says why there is none. Answers where it is. -/
def capture (env : Env σ) (name : String) (s : State σ) : Part (Option Path) × State σ :=
  match saveScreenshot env name s with
  | (.cut, s) => (.cut, s)
  | (.done (.ok path), s) => (.done (some path), s)
  | (.done (.error e), s) => (.done none, s.note env name (Capture.failureMessage e))

/-- Processes the start marker of a step. -/
def markStart (env : Env σ) (step : Step) (s : State σ) : State σ :=
  if step.marker = .start then { s with pending := some (s.now env) } else s

/-- Processes the finish marker of a step that does not stop the run. Answers whether there
was one that wrote no sample. -/
def markFinish (env : Env σ) (step : Step) (stop : Bool) (s : State σ) : Bool × State σ :=
  if step.marker = .finish ∧ !stop then
    let (sample, result) :=
      Measure.settle s.pending step.name step.measureSlot (s.now env) s.result
    (sample.isNone, { s with pending := none, result })
  else (false, s)

/-- Takes the screenshot that a step asks for, if the run takes any. Answers whether it
failed. -/
def markCapture (env : Env σ) (capturing : Bool) (step : Step) (s : State σ) :
    Part Bool × State σ :=
  if capturing && step.capture then
    match capture env step.name s with
    | (.cut, s) => (.cut, s)
    | (.done path, s) => (.done path.isNone, s)
  else (.done false, s)

/-- What an executed step means for the run. -/
inductive StepEnd where
  | goOn (jump : Option Int)
  | stop
  | cut
  | unfinished
  deriving DecidableEq, Repr

/-- The outcome of a step as far as it is known from the step alone. -/
def outcomeOf (index : Nat) (step : Step) : Outcome :=
  { index, name := step.name, action := step.actionLabel, selector := step.selectorValue }

/-- The outcome of a step that came to its end. Its messages are the lines of the log from the
ones on that were there before. -/
def endedOutcome (env : Env σ) (step : Step) (before : Nat) (startedAt : DateTime)
    (failed : Bool) (s : State σ) : Outcome :=
  { outcomeOf s.next step with
    startedAt := some startedAt
    finishedAt := some (s.now env)
    status := if failed then .failed else .passed
    messages := s.result.log.lines.drop before }

/-- The outcome of a step that the deadline cut. Its one message says so. -/
def cutOutcome (env : Env σ) (step : Step) (s : State σ) : Outcome :=
  { outcomeOf s.next step with
    finishedAt := some (s.now env)
    status := .failed
    messages := [Log.entry (s.now env) step.name Handler.timedOut] }

/-- Goes on with a step after its activity. -/
def conclude (env : Env σ) (capturing : Bool) (step : Step) (before : Nat)
    (startedAt : DateTime) (v : Verdict) (s : State σ) : StepEnd × State σ :=
  let s := s.noteAll env step.name v.entries
  let (unmeasured, s) := markFinish env step v.stop s
  match markCapture env capturing step s with
  | (.cut, s) => (.cut, s)
  | (.done unsaved, s) =>
    let failed := v.failed || unmeasured || unsaved
    (if v.stop then .stop else .goOn v.jump,
      s.record (endedOutcome env step before startedAt failed s))

/-- Executes a step. -/
def execute (env : Env σ) (capturing : Bool) (step : Step) (s : State σ) :
    StepEnd × State σ :=
  let before := s.result.log.lines.length
  let startedAt := s.now env
  let s := markStart env step s
  match (activity env step).run env.turns s.world with
  | (.verdict v, world) => conclude env capturing step before startedAt v { s with world }
  | (.cut entries, world) => (.cut, ({ s with world }).noteAll env step.name entries)
  | (.unfinished, world) => (.unfinished, { s with world })

/-- Why a run ended. -/
inductive End where
  | finished
  | stopped
  | cancelled
  | cut
  | unfinished
  deriving DecidableEq, Repr

/-- Moves on to the next step: the one after, or where a jump goes. A negative target is the
first step. -/
def advance (jump : Option Int) (s : State σ) : State σ :=
  { s with next := match jump with
      | some target => target.toNat
      | none => s.next + 1 }

/-- Executes steps until the run ends. The bound is on the number of executions. -/
def loop (env : Env σ) (capturing : Bool) (steps : List Step) : Nat → State σ → End × State σ
  | 0, s => (.unfinished, s)
  | bound + 1, s =>
    match steps[s.next]? with
    | none => (.finished, s)
    | some step =>
      if s.world.cancelled then (.cancelled, s.note env step.name Handler.cancelled)
      else
        match execute env capturing step s with
        | (.goOn jump, s) => loop env capturing steps bound (advance jump s)
        | (.stop, s) => (.stopped, s)
        | (.cut, s) => (.cut, s)
        | (.unfinished, s) => (.unfinished, s)

/-- Records the step that the deadline cut. -/
def recordCut (env : Env σ) (steps : List Step) (s : State σ) : State σ :=
  match steps[s.next]? with
  | none => s.note env "" Handler.timedOut
  | some step => (s.note env step.name Handler.timedOut).record (cutOutcome env step s)

/-- Sets the network conditions, if the settings ask for it. A failure changes nothing. -/
def throttle (env : Env σ) (s : State σ) : State σ :=
  let c := env.settings
  if c.throttling then
    { s with world := ((env.session.throttle c.latency c.download c.upload).runAlone s.world).2 }
  else s

/-- Decides where screenshots go from now on and makes the directory. -/
def openDirectory (directory : Path) (s : State σ) : Except FileError Unit × State σ :=
  let s := { s with directory := some directory }
  let (made, files) := s.files.makeDirectories directory
  (made, { s with files })

/-- Opens the directory of a run that takes screenshots. The result names it once it is
there. -/
def prepareCapture (startedAt : DateTime) (env : Env σ) (capturing : Bool) (s : State σ) :
    State σ :=
  if capturing then
    let directory := Capture.runDirectory env.settings.dataDirectory s.result.tag startedAt
    match openDirectory directory s with
    | (.ok (), s) => { s with result := { s.result with artifacts := some directory } }
    | (.error _, s) => s
  else s

/-- The deadline of a run that goes on from a clock, if it has one. -/
def deadlineFrom (settings : RunSettings) (clock : Nat) : Option Nat :=
  match settings.timeout.toFloat? with
  | some seconds =>
    if 0.0 < seconds then some (clock + TimeScale.pauseOfSeconds seconds) else none
  | none => none

/-- A run of a step list: what it is told besides the steps. -/
structure Order where
  tag : String := ""
  capturing : Bool := false
  deriving DecidableEq, Repr

/-- The state of a run before its first step. Earlier cancellations do not count; the deadline
is counted from here. -/
def opening (env : Env σ) (order : Order) (world : World σ) (files : FileTree) : State σ :=
  let startedAt := env.base.add world.clock
  let s : State σ := {
    world := { world with
      cancelled := false, deadline := none
      cancelAt := world.cancelAt.filter (world.clock ≤ ·) }
    files
    result := { tag := order.tag, startedAt := some startedAt } }
  let s := prepareCapture startedAt env order.capturing (throttle env s)
  { s with world := { s.world with deadline := deadlineFrom env.settings s.world.clock } }

/-- Brings a run to its end. A step that the deadline cut is recorded, and nothing is due any
more. -/
def closing (env : Env σ) (steps : List Step) (reason : End) (s : State σ) : State σ :=
  let s := if reason = .cut then recordCut env steps s else s
  { s with
    world := { s.world with deadline := none, cancelAt := none }
    result := { s.result with finishedAt := some (s.now env) } }

/-- Runs a step list from a world and files. -/
def run (env : Env σ) (steps : List Step) (order : Order) (bound : Nat) (world : World σ)
    (files : FileTree) : End × State σ :=
  let (reason, s) := loop env order.capturing steps bound (opening env order world files)
  (reason, closing env steps reason s)

end BrowserSteps.Run
