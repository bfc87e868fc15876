import BrowserSteps.Keyed
import BrowserSteps.Step.Basic

/-!
The registry of actions: a handler for each action that can be run, and what is told about
the actions. Invalid actions are never registered.
-/

namespace BrowserSteps

/-- What is told about an action. -/
structure ActionInfo where
  name : String
  description : String
  category : String
  deriving DecidableEq, Repr, Inhabited

/-- What is told about an action that came without any. -/
def ActionInfo.generated (action : Action) : ActionInfo :=
  ⟨action.word, action.word ++ " アクション", "unknown"⟩

/-- Handlers and information by action, each in the order of the first registration. -/
structure Registry (η : Type) where
  handlers : List (Action × η) := []
  infos : List (Action × ActionInfo) := []

namespace Registry

variable {η : Type}

inductive RegisterError where
  | notHandler
  | invalidAction
  deriving DecidableEq, Repr

def has (r : Registry η) (action : Action) : Bool := (r.handlers.lookup action).isSome

def get? (r : Registry η) (action : Action) : Option η := r.handlers.lookup action

/-- Registers a handler. Information given replaces older information; without any, an
action that has none gets a generated one. -/
def register (r : Registry η) (action : Action) (handler : Option η) (info : Option ActionInfo) :
    Except RegisterError (Registry η) :=
  match handler with
  | none => .error .notHandler
  | some handler =>
    if action = .invalid then .error .invalidAction
    else
      let infos := match info, r.infos.lookup action with
        | some info, _ => Keyed.put action info r.infos
        | none, some _ => r.infos
        | none, none => Keyed.put action (.generated action) r.infos
      .ok ⟨Keyed.put action handler r.handlers, infos⟩

/-- The words of all registered actions, sorted. -/
def names (r : Registry η) : List String :=
  (r.handlers.map (·.1.word)).mergeSort fun a b => a ≤ b

/-- What is told about all actions, sorted by name. Equal names keep their order. -/
def listAll (r : Registry η) : List ActionInfo :=
  (r.infos.map (·.2)).mergeSort fun a b => a.name ≤ b.name

def missingMessage (r : Registry η) (action : Action) : String :=
  "アクション '" ++ action.word ++ "' は登録されていません。登録済みアクション: [" ++
    ", ".intercalate r.names ++ "]"

def notHandlerMessage (kind : String) : String :=
  "handler は ActionHandler Protocol を満たす必要があります: " ++ kind

def invalidActionMessage : String := "Action.INVALID にはハンドラを登録できません"

/-- The information of the standard actions, in the order of their registration. -/
def standardInfos : List (Action × ActionInfo) := [
  (.noop, ⟨"none", "何もしない（マーカー専用ステップ等）", "control"⟩),
  (.openPage, ⟨"open", "actionValue の URL を開く", "navigation"⟩),
  (.fill, ⟨"fill", "要素の値をクリアして actionValue を入力", "action"⟩),
  (.click, ⟨"click", "要素をクリック", "action"⟩),
  (.check, ⟨"check", "要素のテキストを actionValue と照合（正規表現可）", "validation"⟩),
  (.select, ⟨"select", "コンテナ直下の li を actionValue で選択", "action"⟩),
  (.script, ⟨"script", "actionValue のスクリプトをブラウザ内で実行", "control"⟩),
  (.jump, ⟨"goto", "条件スクリプトが true なら nextStep へジャンプ", "control"⟩),
  (.sleep, ⟨"sleep", "actionValue ミリ秒待機", "wait"⟩)]

/-- The information of the actions that wait for several elements. -/
def waitInfos : List (Action × ActionInfo) := [
  (.waitAll, ⟨"wait", "カンマ区切りの全セレクタの要素が出現するまで待機", "wait"⟩),
  (.waitAny, ⟨"any", "カンマ区切りのいずれかのセレクタの要素が出現するまで待機", "wait"⟩)]

/-- A registry with a handler for each action of a list. -/
def ofInfos (handler : Action → η) (infos : List (Action × ActionInfo)) : Registry η :=
  ⟨infos.map fun (action, _) => (action, handler action), infos⟩

/-- The registry of the standard actions. -/
def standard (handler : Action → η) : Registry η := ofInfos handler standardInfos

/-- The registry of all actions. -/
def full (handler : Action → η) : Registry η := ofInfos handler (standardInfos ++ waitInfos)

end Registry

end BrowserSteps
