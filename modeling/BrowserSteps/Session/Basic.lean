import BrowserSteps.Browser.Command
import BrowserSteps.Routine.Basic
import BrowserSteps.Step.Basic

/-!
Sessions: the browser as steps see it.
-/

namespace BrowserSteps

/-- A command of a session, with what it answers. -/
abbrev Command.Routine (σ α : Type) := BrowserSteps.Routine σ (Except Failure α)

/-- The commands that steps are made of. -/
structure Session (σ : Type) where
  navigate : String → Command.Routine σ Unit
  find : SelectorKind → String → Command.Routine σ (Option ElementRef)
  children : ElementRef → String → Command.Routine σ (List ElementRef)
  click : ElementRef → Command.Routine σ Unit
  setText : ElementRef → String → Command.Routine σ Unit
  getText : ElementRef → Command.Routine σ (Option String)
  runScript : String → Command.Routine σ Datum
  screenshot : Command.Routine σ Text.Bytes
  throttle : Int → Int → Int → Command.Routine σ Unit

namespace Reply

def toUnit (_ : Reply) : Unit := ()

def toDatum : Reply → Datum
  | .datum value => value
  | .text (some s) => .text s
  | _ => .null

def toText : Reply → Option String
  | .text value => value
  | .datum (.text s) => some s
  | _ => none

def toElement : Reply → Option ElementRef
  | .element found => found
  | _ => none

def toElements : Reply → List ElementRef
  | .elements found => found
  | _ => []

def toImage : Reply → Text.Bytes
  | .image bytes => bytes
  | _ => []

end Reply

namespace Session

variable {σ δ : Type}

/-- Where the state of a browser is kept inside a shared state. -/
structure Lens (σ δ : Type) where
  get : σ → δ
  set : δ → σ → σ

/-- A browser that is the whole shared state. -/
def Lens.whole : Lens δ δ := ⟨id, fun d _ => d⟩

/-- The end of a call: the browser and, if it asked for that, the cancellation. -/
def finishCall (lens : Lens σ δ) (c : Call δ) : Command.Routine σ Reply :=
  .act
    (fun w =>
      let (answer, d) := c.finish w.clock (lens.get w.shared)
      { shared := lens.set d w.shared, cancels := answer.cancels })
    fun w => .done (c.finish w.clock (lens.get w.shared)).1.outcome

/-- Gives a command to the browser and waits for its answer. -/
def call (browser : Browser δ) (lens : Lens σ δ) (command : Command) : Command.Routine σ Reply :=
  .act
    (fun w =>
      let called := browser.call command w.clock (lens.get w.shared)
      { shared := lens.set called.2 w.shared })
    fun w =>
      let c := (browser.call command w.clock (lens.get w.shared)).1
      match c.pause with
      | some micros => .pause micros (finishCall lens c)
      | none => finishCall lens c

/-- A command whose answer is read by a function. -/
def ask {α : Type} (browser : Browser δ) (lens : Lens σ δ) (command : Command) (read : Reply → α) :
    Command.Routine σ α :=
  (call browser lens command).bind fun answer => .done (answer.map read)

end Session

end BrowserSteps
