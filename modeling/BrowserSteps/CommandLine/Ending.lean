import BrowserSteps.CommandLine.Assignment
import BrowserSteps.CommandLine.Console
import BrowserSteps.Browser.Failure
import BrowserSteps.Config.Basic
import BrowserSteps.Step.File
import BrowserSteps.Template.Store

/-!
How a command ends: its exit code and the lines that it printed. What goes wrong makes one
line among the errors and the code of a failure.
-/

namespace BrowserSteps.CommandLine

inductive ExitCode where
  | success
  | failure
  /-- The words on the command line make no request. -/
  | misuse
  deriving DecidableEq, Repr

def ExitCode.number : ExitCode → Nat
  | .success => 0
  | .failure => 1
  | .misuse => 2

structure Ending where
  code : ExitCode := .success
  out : List String := []
  err : List String := []
  deriving DecidableEq, Repr

/-- Lines as they are printed. -/
def printed (lines : List String) : String := String.join (lines.map (· ++ "\n"))

/-- Why a command cannot do what it was told. -/
inductive Fault where
  | assignment (item : String)
  | config (fault : Config.Fault)
  | steps (error : Step.ReadError)
  | key (error : Template.KeyError)
  | noSteps (path : Path)
  | browser (failure : Failure)
  | file (error : FileError)
  | template (error : Template.StoreError)
  | noTemplateSteps (name : String)
  | number (error : Text.WriteError)
  /-- The output refused a line. -/
  | output (said : String)

def Fault.message : Fault → String
  | .assignment item => badAssignmentMessage item
  | .config fault => fault.message
  | .steps error => error.message
  | .key error => error.message
  | .noSteps path => "実行できるステップがありません: " ++ path.text
  | .browser failure => failure.message
  | .file error => error.message
  | .template error => error.message
  | .noTemplateSteps name =>
    "テンプレート '" ++ name ++ "' からステップを生成できませんでした"
  | .number error => error.message
  | .output said => said

/-- The end of a command that met a fault after some lines. -/
def Ending.ofFault (fault : Fault) (out : List String) : Ending :=
  ⟨.failure, out, ["エラー: " ++ fault.message]⟩

/-- The end of a command that met an error it does not expect. The trace of the error, which goes
to the errors, is left out. -/
def Ending.crashed (out : List String) : Ending := { code := .failure, out }

/-- The end of a command that prints its lines last; `refused` is its end if one of them is not
taken. -/
def Ending.printedTo (console : Console) (refused : String → List String → Ending)
    (ending : Ending) : Ending :=
  match console.print [] ending.out with
  | (_, none) => ending
  | (out, some said) => refused said out

end BrowserSteps.CommandLine
