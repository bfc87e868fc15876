import BrowserSteps.CommandLine.Generation
import BrowserSteps.CommandLine.Inspection
import BrowserSteps.CommandLine.Running

/-!
The program behind the command line, as a function of the output, the words, the environment
and the workspace. It has no end if a run has none.
-/

namespace BrowserSteps.CommandLine

/-- Does what a request asks for. -/
def fulfil {δ : Type} (host : Run.Host δ) (console : Console) (env : Config.Environment)
    (w : Workspace δ) : Request → Option (Ending × Workspace δ)
  | .run r => runSteps host console env r w
  | .validate path => some ((validate w.files path).printedTo console fun _ => .crashed, w)
  | .listActions => some (listActions.printedTo console fun _ => .crashed, w)
  | .template r =>
    let (ending, files) := generate env r w.files
    some (ending.printedTo console fun said => .ofFault (.output said), { w with files })

/-- Does what words ask for. Words that make no request change nothing. -/
def program {δ : Type} (host : Run.Host δ) (console : Console) (env : Config.Environment)
    (words : List String) (w : Workspace δ) : Option (Ending × Workspace δ) :=
  match Request.ofWords? words with
  | none => some ({ code := .misuse }, w)
  | some request => fulfil host console env w request

end BrowserSteps.CommandLine
