import BrowserSteps.Browser.Document
import BrowserSteps.CommandLine.Program
import BrowserSteps.Json.Reader
import Std.Time.Format

/-!
The program on its machine: it takes the words, the environment, the time and the files
below the working directory from there, and prints and writes what the command line
answers. The browser follows the script in a JSON document that a variable names; without
one its page is empty.
-/

open BrowserSteps

/-- The variable that names the document of the browser. -/
def pageVariable : String := "BROWSER_STEPS_PAGE"

/-- The local time in whole seconds. -/
def localTime : IO DateTime := do
  let now ← Std.Time.PlainDateTime.now
  let text := now.format "uuuu-MM-dd'T'HH:mm:ss"
  return (DateTime.ofIso? text).getD ⟨0⟩

/-- The variables that the configuration looks at. -/
def readEnvironment : IO Config.Environment :=
  (Config.Field.all.filterMap Config.variableName?).filterMapM fun name => do
    return (← IO.getEnv name).map (name, ·)

/-- Adds a directory and all that is below it. -/
partial def readFiles (place : List String) (tree : FileTree) : IO FileTree := do
  let here ← IO.FS.realPath ("/".intercalate ("." :: place))
  (← here.readDir).foldlM (fun tree entry => do
    let below := place ++ [entry.fileName]
    if ← entry.path.isDir then readFiles below (tree.put below .directory)
    else return tree.put below (.file (← IO.FS.readBinFile entry.path).toList)) tree

/-- Writes the files that changed. -/
def writeFiles (before after : FileTree) : IO Unit :=
  (after.changedSince before).forM fun (place, content) => do
    IO.FS.createDirAll ("/".intercalate ("." :: place.dropLast))
    IO.FS.writeBinFile ("/".intercalate ("." :: place)) ⟨content.toArray⟩

/-- The browser of the named document. -/
def readBrowser : IO Scripted := do
  match ← IO.getEnv pageVariable with
  | none => return {}
  | some path =>
    match Json.read (← IO.FS.readFile path) with
    | .ok document => return .ofJson document
    | .error _ => throw (IO.userError (path ++ " is no JSON document"))

def main (words : List String) : IO UInt32 := do
  let files ← readFiles [] {}
  let host : Run.Host Scripted := ⟨Scripted.browser, ← localTime, 1000000⟩
  let world : World (Owned Scripted) := { shared := { browser := ← readBrowser } }
  match CommandLine.program host .tolerant (← readEnvironment) words ⟨world, files⟩ with
  | none => throw (IO.userError "the run does not end")
  | some (ending, after) =>
    IO.print (CommandLine.printed ending.out)
    IO.eprint (CommandLine.printed ending.err)
    writeFiles files after.files
    return ending.code.number.toUInt32
