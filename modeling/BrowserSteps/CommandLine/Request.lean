import BrowserSteps.CommandLine.Arguments
import BrowserSteps.Files.Path
import BrowserSteps.Text.Numeral

/-!
Requests: the four commands with what they are told. Words that are no request are a
misuse of the command line.
-/

namespace BrowserSteps.CommandLine

/-- A request to run a step file. -/
structure RunRequest where
  stepsFile : Path
  tag : String := ""
  capturing : Bool := false
  headed : Option Bool := none
  params : List String := []
  /-- Seconds after which the run is cut. -/
  timeout : Option Float := none
  reportDirectory : Option Path := none
  configFile : Option Path := none

/-- A request for the steps of a template, or for the names of all templates. -/
structure TemplateRequest where
  name : Option String := none
  params : List String := []
  output : Option Path := none
  directory : Option Path := none
  configFile : Option Path := none
  deriving DecidableEq, Repr

inductive Request where
  | run (request : RunRequest)
  | validate (stepsFile : Path)
  | listActions
  | template (request : TemplateRequest)

namespace Request

/-- The switches that a run knows. -/
def runSwitches : List Switch :=
  [.tag, .capture, .noCapture, .headed, .headless, .param, .timeout, .reportDirectory, .config,
    .verbose]

/-- The switches that a template request knows. -/
def templateSwitches : List Switch := [.param, .output, .templatesDirectory, .config]

/-- The path that a switch names. -/
def path? (a : Arguments) (switch : Switch) : Option Path := (a.value? switch).map .ofString

/-- The number of seconds that a switch names. Only the last value has to be a number. -/
def seconds? (a : Arguments) (switch : Switch) : Option (Option Float) :=
  match a.value? switch with
  | none => some none
  | some text => (Text.readFloat? text).map some

def ofRunArguments? (a : Arguments) : Option Request :=
  match a.operands, seconds? a .timeout with
  | [file], some timeout => some (.run {
      stepsFile := .ofString file
      tag := (a.value? .tag).getD ""
      capturing := (a.choice? .capture .noCapture).getD false
      headed := a.choice? .headed .headless
      params := a.values .param
      timeout
      reportDirectory := path? a .reportDirectory
      configFile := path? a .config })
  | _, _ => none

def ofTemplateArguments? (a : Arguments) : Option Request :=
  if 1 < a.operands.length then none
  else some (.template {
    name := a.operands.head?
    params := a.values .param
    output := path? a .output
    directory := path? a .templatesDirectory
    configFile := path? a .config })

/-- The request of a command with its words. -/
def ofCommand? (command : String) (words : List String) : Option Request :=
  match command with
  | "run" => (Arguments.read? runSwitches words).bind ofRunArguments?
  | "validate" =>
    match Arguments.read? [] words with
    | some ⟨[file], _⟩ => some (.validate (.ofString file))
    | _ => none
  | "list-actions" =>
    match Arguments.read? [] words with
    | some ⟨[], _⟩ => some .listActions
    | _ => none
  | "template" => (Arguments.read? templateSwitches words).bind ofTemplateArguments?
  | _ => none

/-- The request that words make. Two dashes may come before the command. -/
def ofWords? : List String → Option Request
  | [] => none
  | "--" :: command :: words => ofCommand? command words
  | command :: words => ofCommand? command words

end Request

end BrowserSteps.CommandLine
