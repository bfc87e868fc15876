import BrowserSteps.Keyed
import BrowserSteps.Step.Basic
import BrowserSteps.Step.Field

/-!
Steps from JSON objects. A field is looked up under its wire name first and under its long
name second; a missing one takes its default, unknown ones are ignored. All faults are
collected, in the order of the fields.
-/

namespace BrowserSteps

/-- A fault and the key whose value has it; no key if the value is no object at all. -/
structure FieldError where
  key : Option String
  fault : Field.Fault
  deriving DecidableEq, Repr

/-- A value, or faults. Faults of two readings add up. -/
abbrev Reading (α : Type) := Except (List FieldError) α

namespace Reading

/-- Applies a read function to a read argument and keeps the faults of both. -/
def ap {α β : Type} (f : Reading (α → β)) (x : Reading α) : Reading β :=
  match f, x with
  | .ok f, .ok x => .ok (f x)
  | .ok _, .error e => .error e
  | .error e, .ok _ => .error e
  | .error e, .error e' => .error (e ++ e')

end Reading

namespace Step

/-- Reads one field: the value of the first name that is there, else the default. -/
def readField {α : Type} (members : List (String × Json)) (names : List String) (default : α)
    (convert : Json → Except Field.Fault α) : Reading α :=
  match names.findSome? fun name => (Json.get? name members).map (name, ·) with
  | none => .ok default
  | some (key, value) =>
    match convert value with
    | .ok x => .ok x
    | .error fault => .error [⟨some key, fault⟩]

/-- Keeps the spelling of an invalid action beside the other members. -/
def keepRawAction (members : List (String × Json)) : List (String × Json) :=
  match Json.get? "action" members with
  | some (.str raw) =>
    if Action.resolve raw = .invalid then Keyed.put "rawAction" (.str raw) members else members
  | some (.unpaired raw) => Keyed.put "rawAction" (.unpaired raw) members
  | _ => members

/-- A step from the members of an object. -/
def ofMembers (members : List (String × Json)) : Reading Step :=
  let members := keepRawAction members
  let fresh : Step := {}
  Reading.ap (Reading.ap (Reading.ap (Reading.ap (Reading.ap (Reading.ap (Reading.ap (Reading.ap
    (Reading.ap (Reading.ap (Reading.ap (Reading.ap (.ok Step.mk)
    (readField members ["name"] fresh.name Field.textOrNull))
    (readField members ["selectorType", "selector_kind"] fresh.selectorKind
      (Field.choice .unknown SelectorKind.resolve)))
    (readField members ["selectorValue", "selector_value"] fresh.selectorValue Field.textOrNull))
    (readField members ["marker"] fresh.marker (Field.choice .none Marker.resolve)))
    (readField members ["action"] fresh.action (Field.choice .invalid Action.resolve)))
    (readField members ["actionValue", "action_value"] fresh.actionValue Field.textOrNull))
    (readField members ["measure", "measure_slot"] fresh.measureSlot Field.integer))
    (readField members ["stopOnError", "stop_on_error"] fresh.stopOnError Field.truth))
    (readField members ["timeout", "timeout_seconds"] fresh.timeoutSeconds Field.integer))
    (readField members ["capture"] fresh.capture Field.truth))
    (readField members ["nextStep", "jump_target"] fresh.jumpTarget Field.integer))
    (readField members ["rawAction", "raw_action"] fresh.rawAction Field.optionalText)

/-- A step from a JSON value. -/
def ofJson : Json → Reading Step
  | .obj members => ofMembers members
  | _ => .error [⟨none, .notObject⟩]

/-- Steps from the items of an array, all or none. -/
def listOfItems? : List Json → Option (List Step)
  | [] => some []
  | item :: rest =>
    match ofJson item with
    | .ok step => (listOfItems? rest).map (step :: ·)
    | .error _ => none

/-- A value that is no array of steps holds no steps at all. -/
def listOfJson : Json → List Step
  | .arr items => (listOfItems? items).getD []
  | _ => []

end Step

end BrowserSteps
