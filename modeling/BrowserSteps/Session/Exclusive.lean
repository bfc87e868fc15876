import BrowserSteps.Pattern.Reader
import BrowserSteps.Pattern.Matcher
import BrowserSteps.Session.Basic

/-!
A session that owns a browser: it launches and closes it, and lets one command at a time
through. Page commands need an active session; they look for it once they have the lock.
-/

namespace BrowserSteps

/-- The phases of a session. -/
inductive Phase where
  | idle
  | launching
  | active
  | closing
  | closed
  deriving DecidableEq, Repr, Inhabited

def Phase.word : Phase → String
  | .idle => "idle"
  | .launching => "launching"
  | .active => "active"
  | .closing => "closing"
  | .closed => "closed"

/-- What a session holds of its browser, and the browser itself. -/
structure Owned (δ : Type) where
  phase : Phase := .idle
  hasDriver : Bool := false
  hasBrowser : Bool := false
  hasContext : Bool := false
  hasPage : Bool := false
  browser : δ

/-- Whether page commands are possible. -/
def Owned.isUsable {δ : Type} (s : Owned δ) : Bool := s.phase = .active && s.hasPage

/-- The size of a window and whether it shows. -/
structure Window where
  headed : Bool := false
  width : Int := 1280
  height : Int := 720
  deriving DecidableEq, Repr

namespace Session

variable {δ α : Type}

/-- The browser inside an owned one. -/
def Lens.owned : Lens (Owned δ) δ := ⟨(·.browser), fun d s => { s with browser := d }⟩

/-- Changes what the session holds. -/
def setOwned (f : Owned δ → Owned δ) : Routine (Owned δ) Unit :=
  .modify f

/-- The selector of an element in the notation of the browser. A name is that of a tag. -/
def selectorText : SelectorKind → String → Except SessionFault String
  | .id, value => .ok ("id=" ++ value)
  | .cssClass, value =>
    let escaped := value.toList.flatMap fun c => if c = '\\' || c = '"' then ['\\', c] else [c]
    .ok ("css=[class~=\"" ++ String.ofList escaped ++ "\"]")
  | .name, value => .ok ("css=" ++ value)
  | .xpath, value => .ok ("xpath=" ++ value)
  | .unknown, _ => .error .unknownSelectorKind

/-- The word that makes a script the body of a function, as a pattern. -/
def returnWord : Pattern.Node :=
  .chain (.anchor (.wordEdge false false) ::
    "return".toList.map (fun c => .one (.single .exact c)) ++ [.anchor (.wordEdge false false)])

/-- A script as the browser takes it: one that returns is wrapped into a function. -/
def scriptText (source : String) : String :=
  if returnWord.occursIn source.toList then "() => \x7b\n" ++ source ++ "\n\x7d" else source

section

variable (browser : Browser δ)

/-- A command to the browser of the session, whose answer is read by a function. -/
def ownedAsk (command : Command) (read : Reply → α) : Command.Routine (Owned δ) α :=
  ask browser .owned command read

/-- Runs a page command if the session is active. -/
def onPage (body : Command.Routine (Owned δ) α) : Command.Routine (Owned δ) α :=
  Routine.world.bind fun w =>
    if Owned.isUsable w.shared then body else .done (.error (.session .noActiveSession))

/-- Runs a command if the session has a context, else fails. -/
def withContext (fault : SessionFault) (body : Command.Routine (Owned δ) α) :
    Command.Routine (Owned δ) α :=
  Routine.world.bind fun w =>
    if w.shared.hasContext then body else .done (.error (.session fault))

/-- Runs steps one after the other up to the first failure. -/
def steps : List (Command.Routine (Owned δ) Unit) → Command.Routine (Owned δ) Unit
  | [] => .done (.ok ())
  | first :: rest =>
    first.bind fun result => match result with
      | .ok () => steps rest
      | .error e => .done (.error e)

/-- A command, and what the session holds once it succeeded. -/
def obtain (command : Command) (keep : Owned δ → Owned δ) :
    Command.Routine (Owned δ) Unit :=
  (ownedAsk browser command Reply.toUnit).bind fun result => match result with
    | .ok () => (setOwned keep).bind fun _ => .done (.ok ())
    | .error e => .done (.error e)

/-- What a launch obtains. -/
def acquisitions (window : Window) : List (Command.Routine (Owned δ) Unit) :=
  [obtain browser .start fun s => { s with hasDriver := true },
    obtain browser (.launch !window.headed) fun s => { s with hasBrowser := true },
    obtain browser (.newContext window.width window.height) fun s => { s with hasContext := true },
    obtain browser .newPage fun s => { s with hasPage := true, phase := .active }]

/-- Launches the browser and opens a page. After a failure the session is idle again, and
keeps what it got up to then. -/
def launch (window : Window) : Command.Routine (Owned δ) Unit :=
  Routine.world.bind fun w =>
    if w.shared.phase = .active then .done (.error (.session .alreadyActive))
    else
      (setOwned fun s => { s with phase := .launching }).bind fun _ =>
      (steps (acquisitions browser window)).bind fun result => match result with
        | .ok () => .done (.ok ())
        | .error e =>
          (setOwned fun s => { s with phase := .idle }).bind fun _ => .done (.error e)

/-- Gives a command if the session holds what it needs. -/
def releaseIf (holds : Owned δ → Bool) (command : Command) :
    Command.Routine (Owned δ) Unit :=
  Routine.world.bind fun w =>
    if holds w.shared then ownedAsk browser command Reply.toUnit else .done (.ok ())

/-- What a session gives back. -/
def releases : List (Command.Routine (Owned δ) Unit) :=
  [releaseIf browser (·.hasBrowser) .closeBrowser, releaseIf browser (·.hasDriver) .stop]

/-- Closes the browser. Failures on the way are swallowed, and end it. -/
def close : Routine (Owned δ) Unit :=
  Routine.world.bind fun w =>
    match w.shared.phase with
    | .closed | .closing => .done ()
    | _ =>
      (setOwned fun s => { s with phase := .closing }).bind fun _ =>
      (steps (releases browser)).bind fun _ =>
      setOwned fun s =>
        { s with
          phase := .closed, hasDriver := false, hasBrowser := false, hasContext := false
          hasPage := false }

/-- The text of an element without blanks around it. -/
private def trimmedText (answer : Option String) : Option String :=
  some (Text.trim (answer.getD ""))

/-- The session of an owned browser. -/
def exclusive : Session (Owned δ) where
  navigate url := .locked (onPage (ownedAsk browser (.navigate url) Reply.toUnit))
  find kind value :=
    match selectorText kind value with
    | .error fault => .done (.error (.session fault))
    | .ok selector => .locked (onPage (ownedAsk browser (.query selector) Reply.toElement))
  children element tag := .locked (ownedAsk browser (.children element tag) Reply.toElements)
  click element := .locked (ownedAsk browser (.click element) Reply.toUnit)
  setText element value :=
    .locked (steps [
      ownedAsk browser (.clear element) Reply.toUnit,
      ownedAsk browser (.type element value) Reply.toUnit])
  getText element := .locked (ownedAsk browser (.text element) (trimmedText ·.toText))
  runScript source :=
    .locked (onPage (ownedAsk browser (.evaluate (scriptText source)) Reply.toDatum))
  screenshot := .locked (onPage (ownedAsk browser .screenshot Reply.toImage))
  throttle latency download upload :=
    withContext .noContext (.locked (withContext .lostContext (onPage (steps [
      ownedAsk browser .attach Reply.toUnit,
      ownedAsk browser (.emulate latency download upload) Reply.toUnit]))))

end

end Session

end BrowserSteps
