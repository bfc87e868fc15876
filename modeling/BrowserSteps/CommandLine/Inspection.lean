import BrowserSteps.CommandLine.Ending
import BrowserSteps.Lint
import BrowserSteps.Run.Registry

/-!
Commands that only look: the check of a step file and the list of all actions.
-/

namespace BrowserSteps.CommandLine

/-- The line of an issue. -/
def issueLine (issue : Lint.Issue) : String :=
  "[" ++ issue.finding.severity.word ++ "] ステップ " ++ toString issue.index ++ " (" ++ issue.name ++
    "): " ++ issue.message

/-- What is told of checked steps. An issue that cannot be written is an error that no command
expects. -/
def checked (path : Path) (steps : List Step) : Ending :=
  if steps.isEmpty then
    ⟨.failure, [], ["✗ " ++ path.text ++ ": ステップを読み込めませんでした"]⟩
  else
    match Lint.issues steps with
    | .error _ => .crashed []
    | .ok [] => { out := ["✓ " ++ path.text ++ ": " ++ toString steps.length ++ " ステップ、問題なし"] }
    | .ok issues => ⟨if Lint.hasErrors issues then .failure else .success, [], issues.map issueLine⟩

/-- Checks a step file. -/
def validate (files : FileTree) (path : Path) : Ending :=
  match Step.load files path with
  | .error e => .ofFault (.steps e) []
  | .ok steps => checked path steps

/-- A text followed by blanks up to a width. -/
def padRight (width : Nat) (s : String) : String :=
  s ++ String.ofList (List.replicate (width - s.length) ' ')

/-- The line of an action. -/
def actionLine (info : ActionInfo) : String :=
  "  " ++ padRight 10 info.name ++ " " ++ info.description

/-- The categories of actions, sorted, each of them once. -/
def categories (infos : List ActionInfo) : List String :=
  (infos.map (·.category)).eraseDups.mergeSort fun a b => a ≤ b

/-- The lines of a category. -/
def categoryLines (infos : List ActionInfo) (category : String) : List String :=
  ("\n[" ++ category ++ "]") :: (infos.filter (·.category = category)).map actionLine

/-- Lists all actions by their categories. -/
def listActions : Ending :=
  let infos := (Registry.full fun _ => ()).listAll
  { out := (categories infos).flatMap (categoryLines infos) ++
      ["\n合計: " ++ toString infos.length ++ " アクション"] }

end BrowserSteps.CommandLine
