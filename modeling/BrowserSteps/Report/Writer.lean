import BrowserSteps.Files.Tree
import BrowserSteps.Report.Junit

/-!
Writing reports into a directory, which is made if need be.
-/

namespace BrowserSteps.Report

inductive Form where
  | json
  | html
  | junit
  deriving DecidableEq, Repr

namespace Form

/-- All forms, in the order in which they are written. -/
def all : List Form := [.json, .html, .junit]

def fileName : Form → String
  | .json => "report.json"
  | .html => "report.html"
  | .junit => "junit.xml"

def text : Form → RunResult → String
  | .json => jsonText
  | .html => htmlText
  | .junit => junitText

end Form

/-- Writes one report and answers its path. -/
def write (tree : FileTree) (form : Form) (r : RunResult) (directory : Path) :
    Except FileError Path × FileTree :=
  let path := directory.child form.fileName
  match tree.makeDirectories path.parent with
  | (.error e, tree) => (.error e, tree)
  | (.ok (), tree) =>
    match tree.writeText path (form.text r) with
    | .ok tree => (.ok path, tree)
    | .error e => (.error e, tree)

/-- Writes reports one after the other. A failure keeps those already written. -/
def writeEach (directory : Path) (r : RunResult) :
    List Form → FileTree → Except FileError (List Path) × FileTree
  | [], tree => (.ok [], tree)
  | form :: rest, tree =>
    match write tree form r directory with
    | (.error e, tree) => (.error e, tree)
    | (.ok path, tree) =>
      let (paths, tree) := writeEach directory r rest tree
      (paths.map (path :: ·), tree)

/-- Writes all reports. -/
def writeAll (tree : FileTree) (r : RunResult) (directory : Path) :
    Except FileError (List Path) × FileTree :=
  writeEach directory r Form.all tree

end BrowserSteps.Report
