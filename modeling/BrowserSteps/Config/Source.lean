import BrowserSteps.Config.Basic
import BrowserSteps.Files.Tree
import BrowserSteps.Keyed
import BrowserSteps.Run.Settings
import BrowserSteps.Yaml.Value

/-!
Where a configuration comes from: a file, the environment and overrides, each of which has
the last word over those before it. Unknown names in a file and numbers in the environment
that cannot be read are passed over; an unknown name among the overrides is a fault.
-/

namespace BrowserSteps.Config

/-- The file that is read if none is named. -/
def defaultFile : Path := ⟨false, ["uiprobe.yaml"]⟩

/-- The field that a name stands for in the network section. -/
def networkName (key : Datum) : String :=
  match key.display with
  | "throttling" => Field.throttling.name
  | "latency" => Field.latency.name
  | "download" => Field.download.name
  | "upload" => Field.upload.name
  | other => "network_" ++ other

/-- The pairs of a file by the names of fields: those of the network section count as if
they stood outside of it. -/
def namesOf (pair : Datum × Datum) : List (String × Datum) :=
  match pair with
  | (.text "network", .map pairs) => pairs.map fun (key, value) => (networkName key, value)
  | (key, value) => [(key.display, value)]

/-- The values of a file by their names. -/
def flatten (pairs : List (Datum × Datum)) : List (String × Datum) :=
  Keyed.ofPairs (pairs.flatMap namesOf)

/-- Whether a name of a file cannot be written: one with a whole number of too many digits. -/
def isUnwritableName (pair : Datum × Datum) : Bool :=
  match pair with
  | (.text "network", .map pairs) => pairs.any (·.1.isUnwritable)
  | (key, _) => key.isUnwritable

/-- The content of a file, if all of its names can be written. -/
def checkNames (datum : Datum) : Except Fault Datum :=
  match datum with
  | .map pairs => if pairs.any isUnwritableName then .error (.misfit .unwritable) else .ok datum
  | _ => .ok datum

/-- Sets fields one after the other, and passes over unknown names. -/
def setAll (c : Config) : List (String × Datum) → Except Fault Config
  | [] => .ok c
  | (name, value) :: rest =>
    match Field.ofName? name with
    | none => c.setAll rest
    | some f =>
      match c.set f value with
      | .ok c => c.setAll rest
      | .error e => .error e

/-- The configuration that the content of a file describes. -/
def ofDatum (path : Path) : Datum → Except Fault Config
  | .null => .ok {}
  | .map pairs => setAll {} (flatten pairs)
  | _ => .error (.notMapping path)

/-- Reads a file. -/
def ofFile (tree : FileTree) (path : Path) : Except Fault Config := do
  if ← (tree.present path).mapError .file then
    let text ← (tree.readText path).mapError .file
    match Yaml.read text with
    | .ok datum => ofDatum path (← checkNames datum)
    | .error (.value fault) => throw (.value fault)
    | .error _ => throw (.malformed path)
  else throw (.missing path)

/-- The variable that gives a field its value. -/
def variableName? : Field → Option String
  | .dataDirectory => some "UIPROBE_DATA_DIR"
  | .headed => some "UIPROBE_HEADED"
  | .runTimeout => some "UIPROBE_RUN_TIMEOUT"
  | .throttling => some "UIPROBE_NETWORK_THROTTLING"
  | .latency => some "UIPROBE_NETWORK_LATENCY"
  | .download => some "UIPROBE_NETWORK_DOWNLOAD"
  | .upload => some "UIPROBE_NETWORK_UPLOAD"
  | .templatesDirectory => some "UIPROBE_TEMPLATES_DIR"
  | .viewportWidth | .viewportHeight => none

/-- Variables and their values. -/
abbrev Environment := List (String × String)

/-- The value that the environment has for a field. -/
def Environment.value? (env : Environment) (f : Field) : Option String :=
  (variableName? f).bind fun name => List.lookup name env

/-- Sets a field from the environment, if a value is there and can be read. -/
def setFrom (env : Environment) (c : Config) (f : Field) : Config :=
  match env.value? f with
  | none => c
  | some text => (c.set f (.text text)).toOption.getD c

/-- Sets all fields that the environment has values for. -/
def applyEnvironment (env : Environment) (c : Config) : Config :=
  Field.all.foldl (setFrom env) c

/-- Applies overrides one after the other; null overrides nothing. A fault keeps what has
been set before it. -/
def override (c : Config) : List (String × Datum) → Option Fault × Config
  | [] => (none, c)
  | (_, .null) :: rest => c.override rest
  | (name, value) :: rest =>
    match Field.ofName? name with
    | none => (some (.unknown name), c)
    | some f =>
      match c.set f value with
      | .ok c => c.override rest
      | .error e => (some e, c)

/-- The configuration of a file and the environment. Without a path the default file is
read if it is there. -/
def load (tree : FileTree) (path : Option Path) (env : Environment) : Except Fault Config := do
  let base ← match path with
    | some path => ofFile tree path
    | none =>
      if ← (tree.present defaultFile).mapError .file then ofFile tree defaultFile else pure {}
  return applyEnvironment env base

/-- What a configuration says about runs. -/
def runSettings (c : Config) : RunSettings where
  timeout := c.runTimeout
  throttling := c.throttling
  latency := c.latency
  download := c.download
  upload := c.upload
  dataDirectory := .ofString c.dataDirectory

end BrowserSteps.Config
