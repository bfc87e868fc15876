import BrowserSteps.Text.Blank
import BrowserSteps.Text.Lower

/-!
Steps: one declarative browser operation each, with what it says about timing and control.
Unknown spellings of selector kinds, markers and actions are no errors; they resolve to
values of their own, and only a run reports them.
-/

namespace BrowserSteps

/-- How an element is addressed. -/
inductive SelectorKind where
  | id
  | cssClass
  | name
  | xpath
  | unknown
  deriving DecidableEq, Repr, Inhabited

namespace SelectorKind

/-- All kinds, in the order of the format. -/
def all : List SelectorKind := [.id, .cssClass, .name, .xpath, .unknown]

/-- The word of the step format. -/
def word : SelectorKind → String
  | .id => "id"
  | .cssClass => "class"
  | .name => "name"
  | .xpath => "xpath"
  | .unknown => "unknown"

/-- The kind that a word spells exactly. -/
def ofWord? (s : String) : Option SelectorKind := all.find? (·.word = s)

/-- Blanks around the word and its case do not matter. -/
def resolve (s : String) : SelectorKind := (ofWord? (Text.lower (Text.trim s))).getD .unknown

end SelectorKind

/-- What a step says about the measurement. -/
inductive Marker where
  | none
  | start
  | finish
  deriving DecidableEq, Repr, Inhabited

namespace Marker

def all : List Marker := [.none, .start, .finish]

/-- The word of the step format. -/
def word : Marker → String
  | .none => "none"
  | .start => "start"
  | .finish => "end"

def ofWord? (s : String) : Option Marker := all.find? (·.word = s)

/-- An unknown word marks nothing. -/
def resolve (s : String) : Marker := (ofWord? (Text.lower (Text.trim s))).getD .none

end Marker

/-- What a step does. -/
inductive Action where
  | noop
  | openPage
  | fill
  | click
  | check
  | select
  | script
  | waitAll
  | waitAny
  | jump
  | sleep
  | invalid
  deriving DecidableEq, Repr, Inhabited

namespace Action

def all : List Action :=
  [.noop, .openPage, .fill, .click, .check, .select, .script, .waitAll, .waitAny, .jump,
    .sleep, .invalid]

/-- The word of the step format. -/
def word : Action → String
  | .noop => "none"
  | .openPage => "open"
  | .fill => "fill"
  | .click => "click"
  | .check => "check"
  | .select => "select"
  | .script => "script"
  | .waitAll => "wait"
  | .waitAny => "any"
  | .jump => "goto"
  | .sleep => "sleep"
  | .invalid => "invalid"

/-- Descriptive spellings of some actions. -/
def synonyms : List (String × Action) :=
  [("run-script", .script), ("wait-all", .waitAll), ("wait-any", .waitAny), ("jump", .jump),
    ("navigate", .openPage)]

def ofWord? (s : String) : Option Action := all.find? (·.word = s)

/-- The action that a word or a synonym spells; any other text is an invalid action. -/
def resolve (s : String) : Action :=
  let key := Text.lower (Text.trim s)
  match synonyms.lookup key with
  | some action => action
  | none => (ofWord? key).getD .invalid

end Action

/-- The slots that a measurement can be written to. -/
def measureSlots : List Int := [1, 2, 3]

/-- One step. It does not change while it runs. -/
structure Step where
  name : String := "No name"
  selectorKind : SelectorKind := .id
  /-- One expression, or several with commas between them. -/
  selectorValue : String := ""
  marker : Marker := .none
  action : Action := .click
  /-- A URL, a text to type or to expect, a script or a number of milliseconds. -/
  actionValue : String := ""
  /-- The slot that a finish marker writes to. -/
  measureSlot : Int := 1
  stopOnError : Bool := false
  timeoutSeconds : Int := 10
  capture : Bool := false
  /-- The index that a jump goes on at. -/
  jumpTarget : Int := 0
  /-- The spelling of an invalid action. -/
  rawAction : Option String := none
  deriving DecidableEq, Repr, Inhabited

namespace Step

/-- The parts of a text between commas. -/
def commaParts : List Char → List (List Char)
  | [] => [[]]
  | ',' :: rest => [] :: commaParts rest
  | c :: rest =>
    match commaParts rest with
    | [] => [[c]]
    | part :: parts => (c :: part) :: parts

/-- The selector expressions: the parts between commas, trimmed, without the blank ones. -/
def selectors (step : Step) : List String :=
  (commaParts step.selectorValue.toList).filterMap fun part =>
    let part := Text.trimBy Text.isBlank part
    if part.isEmpty then none else some (String.ofList part)

/-- The action as messages show it: an invalid one in its own spelling. -/
def actionLabel (step : Step) : String :=
  if step.action = .invalid then step.rawAction.getD step.action.word else step.action.word

end Step

end BrowserSteps
