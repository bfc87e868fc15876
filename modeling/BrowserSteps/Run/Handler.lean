import BrowserSteps.Datum.Display
import BrowserSteps.Json.Printer
import BrowserSteps.Pattern.Matcher
import BrowserSteps.Pattern.Reader
import BrowserSteps.Run.Registry
import BrowserSteps.Wait.Several

/-!
What steps do. The activity of a step runs against a session and ends with a verdict: the
entries for the log, whether the step failed, where a jump goes and whether the run stops.
A step that fails stops the run exactly if it says so.
-/

namespace BrowserSteps

/-- How an activity ended. -/
structure Verdict where
  entries : List String := []
  failed : Bool := false
  jump : Option Int := none
  stop : Bool := false
  deriving DecidableEq, Repr

namespace Verdict

def passed : Verdict := {}

/-- A pass that leaves an entry. -/
def noted (entry : String) : Verdict := { entries := [entry] }

/-- A failure, with the entry that says why. -/
def failure (step : Step) (entry : String) : Verdict :=
  { entries := [entry], failed := true, stop := step.stopOnError }

/-- Puts an entry in front of the others. -/
def after (v : Verdict) (entry : String) : Verdict := { v with entries := entry :: v.entries }

end Verdict

/-- What a step does: a single routine, several waits at once with a judgement on them, or a
rest that a cancellation ends. -/
inductive Activity (σ : Type) where
  | alone (routine : Routine σ Verdict)
  | together (workers : List (Command.Routine σ Wait.Slot))
      (judge : Bool → Except Failure Wait.Several → Verdict) (selectors : List String)
  | rest (micros : Nat) (ended woken : Verdict) (interrupted : String)

/-- What the activity of a step depends on. -/
abbrev Handler (σ : Type) := Step → Activity σ

namespace Handler

/-- Messages of failed steps. -/
def elementNotFound : String :=
  "can not find the element, check selectorType & selectorValue, or update script when page changed"

def invalidAction : String :=
  "Invalid action, only [none, open, fill, click, check, select, script, wait, any, goto, " ++
    "sleep] allowed"

def noOption : String := "select failed, no item matched"

def cancelled : String := "run cancelled"

def timedOut : String := "run timeout"

/-- Why an element was not found, for the log. -/
def notFoundMessage : Wait.Reason → String
  | .timeout => elementNotFound
  | reason => reason.message

/-- Whether a text is as expected: any text that is not empty if nothing is expected, the
same text, or one that the expectation matches as a pattern. -/
def textMatches (actual : Option String) (expected : String) : Except Failure Bool :=
  if expected.isEmpty && actual.any (!·.isEmpty) then .ok true
  else if actual = some expected then .ok true
  else
    match Pattern.read expected, actual with
    | .ok _, none => .error .noText
    | .ok pattern, some text => .ok (pattern.matchesAll text.toList)
    | .error .malformed, _ => .ok false
    | .error .repetitionTooLarge, _ => .error .repetitionTooLarge
    | .error .conflictingFlags, _ => .error .conflictingFlags

/-- A whole number as JSON. -/
def scriptNumber (n : Int) : Except Failure Json :=
  if Text.isLongNumber n then .error .longNumber else .ok (.int n)

/-- A key of a mapping as JSON. Numbers, truth values and null are keys by their texts. -/
def scriptKey : Datum → Except Failure String
  | .text s => .ok s
  | .null => .ok (Json.flatText .null)
  | .bool b => .ok (Json.flatText (.bool b))
  | .int n => (scriptNumber n).map Json.flatText
  | .float x => .ok (Json.flatText (.float x))
  | .binary _ => .error (.foreignKey "bytes")
  | .date _ => .error (.foreignKey "datetime.date")
  | .stamp _ => .error (.foreignKey "datetime.datetime")
  | .fixed _ => .error (.foreignKey "tuple")
  | .list _ | .enclosing false => .error (.foreignKey "list")
  | .map _ | .enclosing true => .error (.foreignKey "dict")
  | .set _ => .error (.foreignKey "set")

mutual

/-- A datum as JSON. What JSON does not have stands there as its text. -/
def scriptJson : Datum → Except Failure Json
  | .null => .ok .null
  | .bool b => .ok (.bool b)
  | .int n => scriptNumber n
  | .float x => .ok (.float x)
  | .text s => .ok (.str s)
  | .list items | .fixed items => (scriptItems items).map .arr
  | .map pairs => (scriptMembers pairs).map .obj
  | .enclosing _ => .error .endlessAnswer
  | other => if other.isUnwritable then .error .longNumber else .ok (.str other.display)

def scriptItems : List Datum → Except Failure (List Json)
  | [] => .ok []
  | item :: rest => do return (← scriptJson item) :: (← scriptItems rest)

def scriptMembers : List (Datum × Datum) → Except Failure (List (String × Json))
  | [] => .ok []
  | (key, value) :: rest => do
    return (← scriptKey key, ← scriptJson value) :: (← scriptMembers rest)

end

/-- What a script answered, for the log. -/
def scriptText : Datum → Except Failure String
  | .text s => .ok s
  | value => (scriptJson value).map Json.flatText

/-- A number of milliseconds; what is no number counts as none, and so does a negative
one. -/
def parseMillis (s : String) : Nat :=
  match Text.readInteger (Text.trim s) with
  | .ok n => n.toNat
  | .error _ => 0

variable {σ τ : Type}

/-- What handlers work with. -/
structure Setting (σ τ : Type) where
  scale : TimeScale τ
  session : Session σ

/-- Waits for the element of a step. -/
def locate (x : Setting σ τ) (step : Step) (selector : String) :
    Command.Routine σ (Wait.Located τ) :=
  Wait.element x.scale x.session step.selectorKind selector (.whole step.timeoutSeconds)
    x.scale.interval true

/-- Failure of an action, by its word. -/
def actionFailure (step : Step) (word : String) (e : Failure) : Verdict :=
  .failure step (word ++ " error: " ++ e.summary)

/-- Waits for an element and goes on with it. -/
def withElement (x : Setting σ τ) (step : Step) (word : String)
    (body : ElementRef → Routine σ Verdict) : Routine σ Verdict :=
  (locate x step step.selectorValue).bind fun result => match result with
    | .error e => .done (actionFailure step word e)
    | .ok (.missed reason _) => .done (.failure step (notFoundMessage reason))
    | .ok (.found element _) => body element

/-- The verdict on a command that is all there is to do. -/
def concluding (step : Step) (word : String) (command : Command.Routine σ Unit) :
    Routine σ Verdict :=
  command.bind fun result => match result with
    | .ok () => .done .passed
    | .error e => .done (actionFailure step word e)

def openPage (x : Setting σ τ) (step : Step) : Routine σ Verdict :=
  concluding step "open" (x.session.navigate step.actionValue)

def fill (x : Setting σ τ) (step : Step) : Routine σ Verdict :=
  withElement x step "fill" fun element =>
    concluding step "fill" (x.session.setText element step.actionValue)

def click (x : Setting σ τ) (step : Step) : Routine σ Verdict :=
  withElement x step "click" fun element => concluding step "click" (x.session.click element)

/-- Clicks the first item whose text is the wanted one. -/
def selectItem (x : Setting σ τ) (step : Step) : List ElementRef → Routine σ Verdict
  | [] => .done (.failure step (noOption ++ ": " ++ step.actionValue))
  | item :: rest =>
    (x.session.getText item).bind fun result => match result with
      | .error e => .done (actionFailure step "select" e)
      | .ok text =>
        if text = some step.actionValue then concluding step "select" (x.session.click item)
        else selectItem x step rest

def select (x : Setting σ τ) (step : Step) : Routine σ Verdict :=
  withElement x step "select" fun element =>
    (x.session.children element "li").bind fun result => match result with
      | .error e => .done (actionFailure step "select" e)
      | .ok items => selectItem x step items

/-- Checks the text of an element. -/
def check (x : Setting σ τ) (step : Step) : Routine σ Verdict :=
  withElement x step "check" fun element =>
    (x.session.getText element).bind fun result =>
      match result.bind fun text => (textMatches text step.actionValue).map (text, ·) with
      | .error e => .done (actionFailure step "check" e)
      | .ok (_, true) => .done .passed
      | .ok (text, false) =>
        .done (.failure step ("check failed, timeout or selector wrong, got: " ++
          text.getD "None" ++ ", expect: " ++ step.actionValue))

/-- An error that no handler expects. -/
def unexpected (step : Step) (e : Failure) : Verdict :=
  .failure step ("unexpected error: " ++ e.summary)

/-- What follows from an answer of a script that has a text. Nobody expects one that has none. -/
def withText (step : Step) (value : Datum) (verdict : String → Verdict) : Verdict :=
  match scriptText value with
  | .ok text => verdict text
  | .error e => unexpected step e

/-- Runs a script. An answer other than null goes to the log. -/
def script (x : Setting σ τ) (step : Step) : Routine σ Verdict :=
  (x.session.runScript step.actionValue).bind fun result => match result with
    | .error e => .done (.failure step e.summary)
    | .ok .null => .done .passed
    | .ok value => .done (withText step value .noted)

/-- Jumps if a script says so. -/
def jump (x : Setting σ τ) (step : Step) : Routine σ Verdict :=
  (x.session.runScript step.actionValue).bind fun result => match result with
    | .error e => .done (actionFailure step "goto" e)
    | .ok (.bool true) => .done { jump := some step.jumpTarget }
    | .ok (.bool false) => .done .passed
    | .ok value =>
      .done (withText step value fun text =>
        .failure step ("goto error: condition must return a boolean, got: " ++ text))

/-- Rests for some milliseconds. -/
def sleep (step : Step) : Activity σ :=
  let millis := parseMillis step.actionValue
  match floatOfInt? millis with
  | none => .alone (.done (unexpected step .hugeDuration))
  | some _ =>
    .rest (TimeScale.pauseOfSeconds (secondsOfMillis millis)) .passed (.failure step cancelled)
      "sleep interrupted"

/-- The judgement on several waits. -/
def judge (step : Step) (needsAll isCancelled : Bool) : Except Failure Wait.Several → Verdict
  | .error e => .failure step ("wait error: " ++ e.message)
  | .ok several =>
    let verdict : Verdict :=
      if (if needsAll then several.all else several.any) then .passed
      else if isCancelled then .failure step cancelled
      else .failure step elementNotFound
    verdict.after several.report

/-- Waits for the elements of all selectors. A single selector is checked for any text. -/
def several (x : Setting σ τ) (needsAll : Bool) (step : Step) : Activity σ :=
  let selectors := step.selectors
  if selectors.length ≤ 1 then .alone (check x { step with actionValue := "" })
  else if step.selectorKind = .unknown then
    .alone (.done (.failure step Wait.Reason.selectorKind.message))
  else
    .together
      (selectors.map (Wait.worker x.scale x.session step.selectorKind (.whole step.timeoutSeconds)
        x.scale.interval true))
      (judge step needsAll) selectors

/-- The handler of an action. -/
def ofAction (x : Setting σ τ) (action : Action) : Handler σ := fun step =>
  match action with
  | .noop | .invalid => .alone (.done .passed)
  | .openPage => .alone (openPage x step)
  | .fill => .alone (fill x step)
  | .click => .alone (click x step)
  | .check => .alone (check x step)
  | .select => .alone (select x step)
  | .script => .alone (script x step)
  | .waitAll => several x true step
  | .waitAny => several x false step
  | .jump => .alone (jump x step)
  | .sleep => sleep step

end Handler

end BrowserSteps
