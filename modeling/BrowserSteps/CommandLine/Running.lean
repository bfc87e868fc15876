import BrowserSteps.CommandLine.Ending
import BrowserSteps.CommandLine.Request
import BrowserSteps.Report.Writer
import BrowserSteps.Run.Opened

/-!
The command that runs a step file. Everything that can be wrong before the browser is
launched is looked for in a fixed order. A run that took place is told of, and then its reports
are written, whatever its status; the status decides the exit code. Whatever fails on the way,
the output included, ends the command at once.
-/

namespace BrowserSteps.CommandLine

/-- What commands work in. -/
structure Workspace (δ : Type) where
  world : World (Owned δ)
  files : FileTree

/-- The values of a request that override the configuration. -/
def RunRequest.overrides (r : RunRequest) : List (String × Datum) :=
  [(Config.Field.headed.name, (r.headed.map Datum.bool).getD .null),
    (Config.Field.runTimeout.name, (r.timeout.map Datum.float).getD .null)]

/-- The configuration of a run. -/
def RunRequest.config (r : RunRequest) (env : Config.Environment) (files : FileTree) :
    Except Config.Fault Config := do
  match (← Config.load files r.configFile env).override r.overrides with
  | (none, config) => return config
  | (some fault, _) => throw fault

/-- The steps of a file whose text is filled in before it is read. -/
def loadSteps (files : FileTree) (path : Path) (params : List (String × String)) :
    Except Fault (List Step) := do
  if params.isEmpty then (Step.load files path).mapError .steps
  else
    let text ← (Step.readFile files path).mapError .steps
    let filled ← (Template.substitute text params).mapError .key
    (Step.ofFileText path filled).mapError .steps

/-- The configuration and the steps of a run; there is at least one. -/
def RunRequest.prepare (r : RunRequest) (env : Config.Environment) (files : FileTree) :
    Except Fault (Config × List Step) := do
  let params ← (assignments r.params).mapError .assignment
  let config ← (r.config env files).mapError .config
  let steps ← loadSteps files r.stepsFile params
  if steps.isEmpty then throw (.noSteps r.stepsFile) else return (config, steps)

/-- How many outcomes have a status. -/
def countStatus (status : Status) (r : RunResult) : Nat := r.outcomes.countP (·.status = status)

/-- The line of a measurement. -/
def measureLine? (r : RunResult) (slot : Int) : Option String :=
  (r.measureTime slot).map fun seconds =>
    "measure_time_" ++ toString slot ++ ": " ++ seconds.fixedText 3 ++ "s"

/-- What is told of a run. -/
def runLines (r : RunResult) : List String :=
  ["タグ: " ++ (if r.tag.isEmpty then "-" else r.tag),
    "ステータス: " ++ r.status.word,
    "実行時間: " ++ Decimal.fixedText 0 r.durationMillis ++ "ms",
    "ステップ: " ++ toString r.outcomes.length ++
      " (passed=" ++ toString (countStatus .passed r) ++
      ", failed=" ++ toString (countStatus .failed r) ++ ")"] ++
  measureSlots.filterMap (measureLine? r) ++
  (r.artifacts.map fun path => "キャプチャ: " ++ path.text).toList ++
  if r.log.text.isEmpty then [] else ["エラーログ:", r.log.text]

/-- Writes the reports of a run, if a directory is given for them. -/
def writeReports (directory : Option Path) (r : RunResult) (files : FileTree) :
    Except FileError (List Path) × FileTree :=
  match directory with
  | none => (.ok [], files)
  | some directory => Report.writeAll files r directory

/-- The exit code that a status calls for. -/
def codeOfStatus (status : Status) : ExitCode := if status = .failed then .failure else .success

/-- The line of a report. -/
def reportLine (path : Path) : String := "レポート: " ++ path.text

/-- The end of a command whose run took place: the run is told of, then the reports are written,
then they are told of. -/
def conclude (console : Console) (directory : Option Path) (r : RunResult) (files : FileTree) :
    Ending × FileTree :=
  match console.print [] (runLines r) with
  | (out, some said) => (.ofFault (.output said) out, files)
  | (out, none) =>
    match writeReports directory r files with
    | (.error e, files) => (.ofFault (.file e) out, files)
    | (.ok paths, files) =>
      match console.print out (paths.map reportLine) with
      | (out, some said) => (.ofFault (.output said) out, files)
      | (out, none) => ({ code := codeOfStatus r.status, out }, files)

/-- Runs a step file in a browser of its own. There is no end if the bound of the host is too small for
the run to end. -/
def runSteps {δ : Type} (host : Run.Host δ) (console : Console) (env : Config.Environment)
    (r : RunRequest) (w : Workspace δ) : Option (Ending × Workspace δ) :=
  match r.prepare env w.files with
  | .error fault => some (.ofFault fault [], w)
  | .ok (config, steps) =>
    match Run.runOpened host config steps ⟨r.tag, r.capturing⟩ w.world w.files with
    | (.error e, world, files) => some (.ofFault (.browser e) [], ⟨world, files⟩)
    | (.ok (.unfinished, _), _, _) => none
    | (.ok (_, result), world, files) =>
      let (ending, files) := conclude console r.reportDirectory result files
      some (ending, ⟨world, files⟩)

end BrowserSteps.CommandLine
