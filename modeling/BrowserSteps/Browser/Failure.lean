import BrowserSteps.Files.Tree
import BrowserSteps.Text.Blank
import BrowserSteps.Text.CaseFold
import BrowserSteps.Text.Numeral

/-!
Failures of what steps ask for, and the short text of one for a log: what comes before the
first piece of driver noise, trimmed and without a leading error word. A text that is
empty after that gives way to the kind of the failure.
-/

namespace BrowserSteps

/-- What a session that is in no state for a command says. -/
inductive SessionFault where
  | noActiveSession
  | noContext
  /-- The context went away while a command waited for its turn. -/
  | lostContext
  | alreadyActive
  | unknownSelectorKind
  deriving DecidableEq, Repr

def SessionFault.message : SessionFault → String
  | .noActiveSession => "アクティブなセッションがありません。先に launch() を呼んでください。"
  | .noContext => "アクティブなセッションがありません。"
  | .lostContext => "'NoneType' object has no attribute 'new_cdp_session'"
  | .alreadyActive => "既にアクティブなセッションがあります。先に close() を呼んでください。"
  | .unknownSelectorKind => "未知のセレクタ種別です: SelectorKind.UNKNOWN"

/-- Why something that a step asked for did not happen. -/
inductive Failure where
  /-- The browser failed: the kind of the failure, and what it says. -/
  | browser (kind message : String)
  | session (fault : SessionFault)
  | file (error : FileError)
  /-- A number of seconds or milliseconds beyond all binary64 numbers. -/
  | hugeDuration
  /-- There is no text to compare. -/
  | noText
  | repetitionTooLarge
  | conflictingFlags
  | noRunDirectory
  /-- A list or a mapping that holds itself has no JSON text. -/
  | endlessAnswer
  /-- A key of this kind has no JSON text. -/
  | foreignKey (kind : String)
  | longNumber
  deriving Repr, DecidableEq

namespace Failure

/-- What the failure says; it may be nothing. -/
def message : Failure → String
  | .browser _ message => message
  | .session fault => fault.message
  | .file error => error.message
  | .hugeDuration => "int too large to convert to float"
  | .noText => "expected string or bytes-like object, got 'NoneType'"
  | .repetitionTooLarge => "the repetition number is too large"
  | .conflictingFlags => "ASCII and UNICODE flags are incompatible"
  | .noRunDirectory => "run_dir が未設定です。create_run_dir() を先に呼び出してください。"
  | .endlessAnswer => "Circular reference detected"
  | .foreignKey kind => "keys must be str, int, float, bool or None, not " ++ kind
  | .longNumber => Text.WriteError.tooLong.message

/-- A name for a failure that says nothing. -/
def kind : Failure → String
  | .browser kind _ => kind
  | .session .unknownSelectorKind | .conflictingFlags | .endlessAnswer | .longNumber => "ValueError"
  | .session .lostContext => "AttributeError"
  | .session _ | .noRunDirectory => "RuntimeError"
  | .file _ => "OSError"
  | .hugeDuration | .repetitionTooLarge => "OverflowError"
  | .noText | .foreignKey _ => "TypeError"

/-- Where driver noise begins. -/
def noiseMarkers : List (List Char) := ["Call log:".toList, "(Session info:".toList]

/-- The text before the first occurrence of a marker; the whole text if there is none. -/
def cutAt (marker : List Char) : List Char → List Char
  | [] => []
  | c :: rest => if marker.isPrefixOf (c :: rest) then [] else c :: cutAt marker rest

/-- What follows a prefix; the case of letters does not matter. -/
def dropPrefixFolded? : List Char → List Char → Option (List Char)
  | [], s => some s
  | _ :: _, [] => none
  | p :: ps, c :: cs =>
    if Text.foldCase p = Text.foldCase c then dropPrefixFolded? ps cs else none

/-- Error words that a message may begin with. -/
def errorWords : List (List Char) := ["javascript error:".toList, "error:".toList]

/-- Drops one leading error word and the blanks after it. -/
def dropErrorWord (s : List Char) : List Char :=
  match errorWords.findSome? (dropPrefixFolded? · s) with
  | some rest => rest.dropWhile Text.isBlank
  | none => s

/-- A message without noise, blanks around it and a leading error word. -/
def clean (s : List Char) : List Char :=
  Text.trimBy Text.isBlank
    (dropErrorWord (Text.trimBy Text.isBlank (noiseMarkers.foldl (fun s m => cutAt m s) s)))

/-- The short text of a failure that has a kind and says something. -/
def summaryOf (kind message : String) : String :=
  let told := if message.isEmpty then kind else message
  let cleaned := clean told.toList
  if cleaned.isEmpty then kind else String.ofList cleaned

/-- The short text of a failure. -/
def summary (e : Failure) : String := summaryOf e.kind e.message

end Failure

end BrowserSteps
