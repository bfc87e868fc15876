import BrowserSteps.Browser.Command
import BrowserSteps.Number

/-!
A browser that follows a script: elements that are there for a time, and for each command a
behaviour, or several that are used up one by one. It keeps a log of its calls.
-/

namespace BrowserSteps

/-- What a call does: pause, ask for a cancellation, fail, or answer. -/
structure Behaviour where
  /-- Milliseconds until the end of the call. -/
  cost : Option Number := none
  cancels : Bool := false
  failure : Option Failure := none
  value : Option Datum := none
  deriving Inhabited

/-- One behaviour for all calls, or one each for the first calls and none afterwards. -/
inductive Behaviours where
  | always (behaviour : Behaviour)
  | inTurn (queue : List Behaviour)
  deriving Inhabited

/-- The behaviour of the next call, and what is left for later ones. -/
def Behaviours.next : Behaviours → Behaviour × Behaviours
  | .always b => (b, .always b)
  | .inTurn [] => ({}, .inTurn [])
  | .inTurn (b :: rest) => (b, .inTurn rest)

/-- Behaviours by the names of what they are for. -/
abbrev Behaviours.Table := List (String × Behaviours)

/-- The behaviour that a table has for a name. -/
def Behaviours.Table.next (name : String) : Behaviours.Table → Behaviour × Behaviours.Table
  | [] => ({}, [])
  | (n, b) :: rest =>
    if n = name then (b.next.1, (n, b.next.2) :: rest)
    else
      let (behaviour, rest) := Behaviours.Table.next name rest
      (behaviour, (n, b) :: rest)

/-- An element of a page. -/
inductive PageElement where
  | mk (id : String) (text : Option String) (tag : String) (children : List PageElement)
      (appears : Number) (hides : Option Number) (findErrors : Int) (on : Behaviours.Table)
  deriving Inhabited

namespace PageElement

def id : PageElement → String | mk id .. => id

def text : PageElement → Option String | mk _ text .. => text

def tag : PageElement → String | mk _ _ tag .. => tag

def children : PageElement → List PageElement | mk _ _ _ children .. => children

def appears : PageElement → Number | mk _ _ _ _ appears .. => appears

def hides : PageElement → Option Number | mk _ _ _ _ _ hides .. => hides

def findErrors : PageElement → Int | mk _ _ _ _ _ _ findErrors _ => findErrors

def on : PageElement → Behaviours.Table | mk _ _ _ _ _ _ _ on => on

def setOn (table : Behaviours.Table) : PageElement → PageElement
  | mk id text tag children appears hides findErrors _ =>
    mk id text tag children appears hides findErrors table

def setChildren (children : List PageElement) : PageElement → PageElement
  | mk id text tag _ appears hides findErrors on =>
    mk id text tag children appears hides findErrors on

/-- The element at the end of a way down. -/
def descend? (e : PageElement) : List Nat → Option PageElement
  | [] => some e
  | i :: rest =>
    match e.children[i]? with
    | some child => child.descend? rest
    | none => none

/-- Changes the element at the end of a way down. -/
def modifyAt (f : PageElement → PageElement) (e : PageElement) : List Nat → PageElement
  | [] => f e
  | i :: rest =>
    match e.children[i]? with
    | some child => e.setChildren (e.children.set i (child.modifyAt f rest))
    | none => e

/-- Whether the element is there, by a clock in microseconds. -/
def isThere (e : PageElement) (clock : Nat) : Bool :=
  let millis := secondsOfMillis clock
  let bound (n : Number) : Float := n.toFloat?.getD (1.0 / 0.0)
  bound e.appears ≤ millis && e.hides.all fun h => millis < bound h

end PageElement

/-- The state of a scripted browser. -/
structure Scripted where
  elements : List (String × PageElement) := []
  scripts : Behaviours.Table := []
  on : Behaviours.Table := []
  /-- The calls with their instants, the latest first. -/
  calls : List (Nat × Command) := []
  /-- How often each element was looked for. -/
  finds : List (String × Nat) := []
  /-- How many screenshots were taken. -/
  shots : Nat := 0
  deriving Inhabited

namespace Scripted

/-- The element that a reference leads to. -/
def element? (s : Scripted) (ref : ElementRef) : Option PageElement :=
  (s.elements.lookup ref.key).bind (·.descend? ref.path)

/-- The identity of a referenced element. -/
def idOf (s : Scripted) (ref : ElementRef) : String := ((s.element? ref).map (·.id)).getD "?"

/-- What a behaviour is looked up by. -/
inductive Owner where
  | browser (name : String)
  | script (source : String)
  | element (ref : ElementRef) (name : String)

/-- Whose behaviour a command follows. -/
def owner : Command → Owner
  | .start => .browser "start"
  | .launch _ => .browser "launch"
  | .newContext .. => .browser "new_context"
  | .newPage => .browser "new_page"
  | .closeBrowser => .browser "close"
  | .stop => .browser "stop"
  | .navigate _ => .browser "navigate"
  | .query _ => .browser "query_selector"
  | .screenshot => .browser "screenshot"
  | .throttle .. => .browser "network"
  | .attach => .browser "new_cdp_session"
  | .emulate .. => .browser "cdp"
  | .evaluate source => .script source
  | .click e => .element e "click"
  | .clear e => .element e "clear"
  | .type e _ => .element e "type"
  | .text e => .element e "text"
  | .children e _ => .element e "children"

/-- Takes the next behaviour of an owner. -/
def takeBehaviour (s : Scripted) : Owner → Behaviour × Scripted
  | .browser name =>
    let (b, on) := Behaviours.Table.next name s.on
    (b, { s with on })
  | .script source =>
    let (b, scripts) := Behaviours.Table.next source s.scripts
    (b, { s with scripts })
  | .element ref name =>
    match s.element? ref with
    | none => ({}, s)
    | some e =>
      let (b, table) := Behaviours.Table.next name e.on
      (b, { s with
        elements := s.elements.map fun (key, top) =>
          if key = ref.key then (key, top.modifyAt (PageElement.setOn table) ref.path)
          else (key, top) })

/-- Counts a look for an element and answers the new count. -/
def countFind (s : Scripted) (key : String) : Nat × Scripted :=
  let count := (s.finds.lookup key).getD 0 + 1
  (count, { s with finds := (key, count) :: s.finds.filter (·.1 ≠ key) })

/-- Looks for an element. -/
def find (s : Scripted) (key : String) (clock : Nat) : Except Failure Reply × Scripted :=
  let (count, s) := s.countFind key
  match s.elements.lookup key with
  | none => (.ok (.element none), s)
  | some e =>
    if (count : Int) ≤ e.findErrors then (.error (.browser "Error" "detached"), s)
    else (.ok (.element (if e.isThere clock then some ⟨key, []⟩ else none)), s)

/-- The children of an element that have a tag. -/
def childrenOf (s : Scripted) (ref : ElementRef) (tag : String) : List ElementRef :=
  match s.element? ref with
  | none => []
  | some e =>
    e.children.zipIdx.filterMap fun (child, i) =>
      if child.tag = tag then some { ref with path := ref.path ++ [i] } else none

/-- The answer of a call that does not fail. -/
def respond (s : Scripted) (command : Command) (value : Option Datum) (clock : Nat) :
    Except Failure Reply × Scripted :=
  match command, value with
  | .query selector, _ => s.find selector clock
  | .screenshot, _ =>
    let shots := s.shots + 1
    (.ok (.image (Text.encodeUtf8 ("png" ++ toString shots))), { s with shots })
  | .text _, some (.text t) => (.ok (.text (some t)), s)
  | .text _, some _ => (.ok (.text none), s)
  | .text ref, none => (.ok (.text ((s.element? ref).bind (·.text))), s)
  | .children ref tag, _ => (.ok (.elements (s.childrenOf ref tag)), s)
  | _, some d => (.ok (.datum d), s)
  | _, none => (.ok .nothing, s)

/-- Milliseconds as a pause in microseconds: rounded half to even and at least one, unless
there is nothing to wait for. -/
def pauseOf (cost : Number) : Option Nat :=
  match cost with
  | .whole 0 => none
  | .whole n => some (if n < 0 then 0 else n.toNat * 1000)
  | .real x =>
    if x == 0.0 then none
    else
      match Decimal.Binary.ofFloat (x / 1000 * 1000000) with
      | .finite d =>
        if d.negative then some 0
        else some (max 1 (Decimal.roundHalfEven d.ratio.1 d.ratio.2))
      | _ => some 0

/-- Looks for elements are logged only where they have a behaviour, and the opening of a protocol
not at all. -/
def isLogged (s : Scripted) : Command → Bool
  | .query _ => (s.on.lookup "query_selector").isSome
  | .attach => false
  | _ => true

/-- A scripted browser at work. -/
def browser : Browser Scripted where
  call command clock s :=
    let s := if s.isLogged command then { s with calls := (clock, command) :: s.calls } else s
    let (b, s) := s.takeBehaviour (owner command)
    ({ pause := b.cost.bind pauseOf
       finish := fun clock s =>
        match b.failure with
        | some e => ({ cancels := b.cancels, outcome := .error e }, s)
        | none =>
          let (outcome, s) := s.respond command b.value clock
          ({ cancels := b.cancels, outcome }, s) }, s)

end Scripted

end BrowserSteps
