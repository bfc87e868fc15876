import BrowserSteps.Files.Tree
import BrowserSteps.Step.Document
import BrowserSteps.Text.Lower
import BrowserSteps.Yaml.Value

/-!
Step files. The end of the name tells the format: a YAML file that is malformed is an
error, a malformed JSON file holds no steps.
-/

namespace BrowserSteps.Step

/-- Why steps cannot be read. -/
inductive ReadError where
  | missing (path : Path)
  | file (error : FileError)
  | json (error : Json.ReadError)
  | yaml (fault : Yaml.Fault)
  deriving Repr

def missingMessage (path : Path) : String := "ステップファイルが見つかりません: " ++ path.text

/-- What is said of a YAML text that is malformed, with the place counted from one. -/
def malformedMessage (place : Option Yaml.Place) : String :=
  "YAML 構文エラー" ++
    match place with
    | some p => " (行 " ++ toString (p.line + 1) ++ ", 列 " ++ toString (p.column + 1) ++ ")"
    | none => ""

/-- What is said of steps that cannot be read. -/
def ReadError.message : ReadError → String
  | .missing path => missingMessage path
  | .file error => error.message
  | .json (.longNumber digits) => Text.longNumberMessage digits
  | .json .malformed => ""
  | .yaml (.value fault) => fault.message
  | .yaml fault => malformedMessage fault.place?

/-- Steps from data, all or none. Data without end are a fault, unless something before them is no
step. -/
def listOfData? : List Datum → Except Yaml.Fault (Option (List Step))
  | [] => .ok (some [])
  | item :: rest =>
    if item.isEndless then .error (.value .recursive)
    else
      match ofJson item.toJson with
      | .ok step => (listOfData? rest).map fun steps => steps.map (step :: ·)
      | .error _ => .ok none

/-- Reads a YAML document. What is no list of steps leaves no steps. -/
def parseYaml (text : String) : Except Yaml.Fault (List Step) := do
  match ← Yaml.read text with
  | .list items => return (← listOfData? items).getD []
  | _ => return []

/-- Whether a path names a YAML file. -/
def isYamlPath (path : Path) : Bool :=
  let suffix := Text.lower path.suffix
  suffix = ".yaml" || suffix = ".yml"

/-- The text of a step file. -/
def readFile (tree : FileTree) (path : Path) : Except ReadError String :=
  match tree.present path with
  | .error e => .error (.file e)
  | .ok false => .error (.missing path)
  | .ok true => (tree.readText path).mapError .file

/-- The steps that the text of a file holds. -/
def ofFileText (path : Path) (text : String) : Except ReadError (List Step) :=
  if isYamlPath path then (parseYaml text).mapError .yaml else (parse text).mapError .json

/-- The steps of a file. -/
def load (tree : FileTree) (path : Path) : Except ReadError (List Step) := do
  ofFileText path (← readFile tree path)

end BrowserSteps.Step
