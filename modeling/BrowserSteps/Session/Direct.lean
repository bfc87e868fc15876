import BrowserSteps.Session.Basic

/-!
A session that hands each command to the browser as it is. Elements are looked up by their
kind and value.
-/

namespace BrowserSteps.Session

variable {δ : Type}

/-- The key of an element: its kind, an equals sign and its value. -/
def directKey (kind : SelectorKind) (value : String) : String := kind.word ++ "=" ++ value

/-- The session of a browser without a lock. -/
def direct (browser : Browser δ) : Session δ :=
  let ask {α : Type} (command : Command) (read : Reply → α) := ask browser .whole command read
  { navigate := fun url => ask (.navigate url) Reply.toUnit
    find := fun kind value => ask (.query (directKey kind value)) Reply.toElement
    children := fun element tag => ask (.children element tag) Reply.toElements
    click := fun element => ask (.click element) Reply.toUnit
    setText := fun element value => ask (.type element value) Reply.toUnit
    getText := fun element => ask (.text element) Reply.toText
    runScript := fun source => ask (.evaluate source) Reply.toDatum
    screenshot := ask .screenshot Reply.toImage
    throttle := fun latency download upload =>
      ask (.throttle latency download upload) Reply.toUnit }

end BrowserSteps.Session
