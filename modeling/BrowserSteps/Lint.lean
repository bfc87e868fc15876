import BrowserSteps.Step.Basic
import BrowserSteps.Text.Numeral
import BrowserSteps.Text.Quoted

/-!
Static checks of step lists: mistakes that a run would put into its log. The checks of a
step come in a fixed order, and the markers are checked in list order. What is found is put
into words at once, and a number that cannot be written ends all checks without an answer.
-/

namespace BrowserSteps.Lint

inductive Severity where
  | error
  | warning
  deriving DecidableEq, Repr

/-- The word of a severity. -/
def Severity.word : Severity → String
  | .error => "error"
  | .warning => "warning"

/-- What can be wrong with a step. -/
inductive Finding where
  | invalidAction (label : String)
  | invalidSelectorKind
  | emptySelector (action : Action)
  | invalidSlot (slot : Int)
  | sleepNotNumeric (value : String)
  | openWithoutUrl
  | jumpOutOfRange (target : Int) (count : Nat)
  | finishBeforeStart
  deriving DecidableEq, Repr

namespace Finding

def severity : Finding → Severity
  | .invalidAction _ | .invalidSelectorKind | .emptySelector _ | .invalidSlot _ => .error
  | .sleepNotNumeric _ | .openWithoutUrl | .jumpOutOfRange _ _ | .finishBeforeStart => .warning

/-- The name of the rule. -/
def rule : Finding → String
  | .invalidAction _ => "invalid-action"
  | .invalidSelectorKind => "invalid-selector-type"
  | .emptySelector _ => "empty-selector"
  | .invalidSlot _ => "invalid-measure"
  | .sleepNotNumeric _ => "sleep-not-numeric"
  | .openWithoutUrl => "open-without-url"
  | .jumpOutOfRange _ _ => "jump-out-of-range"
  | .finishBeforeStart => "end-before-start"

/-- What is said of a finding. Slots and indices are written out. -/
def message : Finding → Except Text.WriteError String
  | .invalidAction label => .ok ("不正なアクションです: " ++ Text.quoted label)
  | .invalidSelectorKind => .ok "selectorType は id / class / name / xpath のいずれかです"
  | .emptySelector action => .ok (action.word ++ " には selectorValue が必要です")
  | .invalidSlot slot => do
    return "measure は 1 / 2 / 3 のいずれかです: " ++ (← Text.writeInteger slot)
  | .sleepNotNumeric value =>
    .ok ("sleep の actionValue が数値ではありません（0ms として扱われます）: " ++ Text.quoted value)
  | .openWithoutUrl => .ok "open の actionValue（URL）が空です"
  | .jumpOutOfRange target count => do
    return "nextStep " ++ (← Text.writeInteger target) ++ " はステップ列の範囲外です（0〜" ++
      (← Text.writeInteger ((count : Int) - 1)) ++ "）"
  | .finishBeforeStart => .ok "先行する start マーカーがない end マーカーです"

end Finding

/-- A finding, the step that has it, and what is said of it. -/
structure Issue where
  index : Nat
  name : String
  finding : Finding
  message : String
  deriving DecidableEq, Repr

/-- Actions that look for an element. -/
def usesElement : Action → Bool
  | .fill | .click | .check | .select | .waitAll | .waitAny => true
  | _ => false

def checkAction (step : Step) : Option Finding :=
  if step.action = .invalid then some (.invalidAction step.actionLabel) else none

def checkSelector (step : Step) : Option Finding :=
  if !usesElement step.action then none
  else if step.selectorKind = .unknown then some .invalidSelectorKind
  else if step.selectors.isEmpty then some (.emptySelector step.action)
  else none

def checkSlot (step : Step) : Option Finding :=
  if step.marker = .finish ∧ step.measureSlot ∉ measureSlots then
    some (.invalidSlot step.measureSlot)
  else none

/-- A text of digits of any kind, and at least one. -/
def isDigitText (s : String) : Bool := !s.isEmpty && s.toList.all Text.isDigit

def checkSleep (step : Step) : Option Finding :=
  if step.action = .sleep ∧ !isDigitText (Text.trim step.actionValue) then
    some (.sleepNotNumeric step.actionValue)
  else none

def checkUrl (step : Step) : Option Finding :=
  if step.action = .openPage ∧ Text.isBlankText step.actionValue then some .openWithoutUrl
  else none

def checkJump (count : Nat) (step : Step) : Option Finding :=
  if step.action = .jump ∧ ¬(0 ≤ step.jumpTarget ∧ step.jumpTarget < count) then
    some (.jumpOutOfRange step.jumpTarget count)
  else none

/-- A finish marker needs a start marker that no other finish marker has used up. -/
def checkMarker (pending : Bool) (step : Step) : Option Finding :=
  if step.marker = .finish ∧ !pending then some .finishBeforeStart else none

/-- Whether a start marker is pending after a step. -/
def pendingAfter (pending : Bool) (step : Step) : Bool :=
  match step.marker with
  | .start => true
  | .finish => false
  | .none => pending

/-- What is wrong with one step of a list of `count` steps. -/
def findings (count : Nat) (pending : Bool) (step : Step) : List Finding :=
  [checkAction step, checkSelector step, checkSlot step, checkSleep step, checkUrl step,
    checkJump count step, checkMarker pending step].filterMap id

/-- A finding of the step at an index, put into words. -/
def issue (index : Nat) (step : Step) (finding : Finding) : Except Text.WriteError Issue :=
  finding.message.map (⟨index, step.name, finding, ·⟩)

/-- The issues of the steps from an index on. -/
def issuesFrom (count index : Nat) (pending : Bool) :
    List Step → Except Text.WriteError (List Issue)
  | [] => .ok []
  | step :: rest => do
    let here ← (findings count pending step).mapM (issue index step)
    let later ← issuesFrom count (index + 1) (pendingAfter pending step) rest
    return here ++ later

/-- All issues of a step list, in its order. -/
def issues (steps : List Step) : Except Text.WriteError (List Issue) :=
  issuesFrom steps.length 0 false steps

/-- Whether an issue is an error. -/
def hasErrors (found : List Issue) : Bool := found.any (·.finding.severity = .error)

end BrowserSteps.Lint
