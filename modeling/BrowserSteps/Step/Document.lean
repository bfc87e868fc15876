import BrowserSteps.Json.Printer
import BrowserSteps.Json.Reader
import BrowserSteps.Step.Reader

/-!
Step documents: arrays of steps as JSON texts. A malformed document holds no steps. Steps from other
sources can hold numbers with too many digits to be written.
-/

namespace BrowserSteps.Step

/-- The members of a step under their wire names. The spelling of an invalid action is
not among them. -/
def toMembers (step : Step) : List (String × Json) :=
  [("name", .str step.name),
    ("selectorType", .str step.selectorKind.word),
    ("selectorValue", .str step.selectorValue),
    ("marker", .str step.marker.word),
    ("action", .str step.action.word),
    ("actionValue", .str step.actionValue),
    ("measure", .int step.measureSlot),
    ("stopOnError", .bool step.stopOnError),
    ("timeout", .int step.timeoutSeconds),
    ("capture", .bool step.capture),
    ("nextStep", .int step.jumpTarget)]

def toJson (step : Step) : Json := .obj (toMembers step)

/-- Whether a step holds a number with too many digits to be written. -/
def hasLongNumber (step : Step) : Bool :=
  [step.measureSlot, step.timeoutSeconds, step.jumpTarget].any Text.isLongNumber

/-- A step as messages show it. -/
def display (step : Step) : Except Text.WriteError String :=
  if step.hasLongNumber then .error .tooLong
  else .ok ("ステップ(" ++ step.name ++ ") => " ++ Json.flatText step.toJson)

/-- Writes steps as a document, on one line or indented. -/
def dump (steps : List Step) (pretty : Bool) : Except Text.WriteError String :=
  let value := Json.arr (steps.map toJson)
  if steps.any hasLongNumber then .error .tooLong
  else .ok (if pretty then Json.deepText value else Json.flatText value)

/-- Reads a document. What is not JSON, no array or no steps leaves no steps; only a whole
number beyond the digit limit is an error. -/
def parse (text : String) : Except Json.ReadError (List Step) :=
  if Text.isBlankText text then .ok []
  else
    match Json.read text with
    | .ok value => .ok (listOfJson value)
    | .error .malformed => .ok []
    | .error (.longNumber digits) => .error (.longNumber digits)

end BrowserSteps.Step
