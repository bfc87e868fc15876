import BrowserSteps.CommandLine.Ending
import BrowserSteps.CommandLine.Request
import BrowserSteps.Config.Source

/-!
The command for templates: without a name it lists them, with one it fills the template in
and writes its steps.
-/

namespace BrowserSteps.CommandLine

/-- The directory of the templates. One that is named makes the configuration needless. -/
def TemplateRequest.store (r : TemplateRequest) (env : Config.Environment) (files : FileTree) :
    Except Fault Template.Store :=
  match r.directory with
  | some directory => .ok { directory }
  | none =>
    match Config.load files r.configFile env with
    | .ok config => .ok { directory := .ofString config.templatesDirectory }
    | .error fault => .error (.config fault)

/-- Lists the templates. -/
def listTemplates (store : Template.Store) (files : FileTree) : Ending :=
  match store.names files with
  | .error e => .ofFault (.file e) []
  | .ok names =>
    { out := names ++
        ["\n合計: " ++ toString names.length ++ " テンプレート（" ++ store.directory.text ++ "）"] }

/-- The steps of a template; there is at least one. -/
def templateSteps (store : Template.Store) (files : FileTree) (name : String)
    (params : List String) : Except Fault (List Step) := do
  let params ← (assignments params).mapError .assignment
  let steps ← (store.build files name params).1.mapError .template
  if steps.isEmpty then throw (.noTemplateSteps name) else return steps

/-- Writes a text into a file. The directories above it are made if need be. -/
def writeOutput (path : Path) (text : String) (files : FileTree) :
    Except FileError Unit × FileTree :=
  match files.makeDirectories path.parent with
  | (.error e, files) => (.error e, files)
  | (.ok (), files) =>
    match files.writeText path text with
    | .error e => (.error e, files)
    | .ok files => (.ok (), files)

/-- Prints steps, or writes them into a file. -/
def deliver (output : Option Path) (steps : List Step) (files : FileTree) : Ending × FileTree :=
  match Step.dump steps true, output with
  | .error e, _ => (.ofFault (.number e) [], files)
  | .ok text, none => ({ out := [text] }, files)
  | .ok text, some path =>
    match writeOutput path (text ++ "\n") files with
    | (.error e, files) => (.ofFault (.file e) [], files)
    | (.ok (), files) =>
      ({ out := ["✓ " ++ toString steps.length ++ " ステップを出力しました: " ++ path.text] }, files)

/-- Lists the templates or makes steps of one. -/
def generate (env : Config.Environment) (r : TemplateRequest) (files : FileTree) :
    Ending × FileTree :=
  match r.store env files with
  | .error fault => (.ofFault fault [], files)
  | .ok store =>
    match r.name with
    | none => (listTemplates store files, files)
    | some name =>
      match templateSteps store files name r.params with
      | .error fault => (.ofFault fault [], files)
      | .ok steps => deliver r.output steps files

end BrowserSteps.CommandLine
