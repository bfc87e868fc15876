import BrowserSteps.Browser.Scripted
import BrowserSteps.Datum.Tagged

/-!
Scripted browsers as JSON documents. A member that is not there or of another kind takes
its default, and unknown ones are passed over.
-/

namespace BrowserSteps

namespace Document

abbrev Members := List (String × Json)

/-- The members of an object. Nothing else has any. -/
def members : Json → Members
  | .obj all => all
  | _ => []

/-- The items of an array. Nothing else has any. -/
def items : Json → List Json
  | .arr all => all
  | _ => []

def textOf (m : Members) (key default : String) : String :=
  match Json.get? key m with
  | some (.str s) => s
  | _ => default

def numberOf? (m : Members) (key : String) : Option Number :=
  (Json.get? key m).bind Number.ofJson?

def objectOf (m : Members) (key : String) : Members := members ((Json.get? key m).getD .null)

/-- What one call does. -/
def behaviour (value : Json) : Behaviour :=
  let m := members value
  { cost := numberOf? m "cost_ms"
    cancels := Json.get? "cancel" m == some (.bool true)
    failure := (Json.get? "raise" m).map fun told =>
      .browser (textOf (members told) "type" "Error") (textOf (members told) "message" "")
    value := (Json.get? "return" m).map .ofTagged }

/-- An array is used up item by item, anything else stays. -/
def behaviours : Json → Behaviours
  | .arr all => .inTurn (all.map behaviour)
  | value => .always (behaviour value)

def table (m : Members) : Behaviours.Table := m.map fun (name, value) => (name, behaviours value)

/-- The text of an element: empty by default, and none if it is null. -/
def elementText (m : Members) : Option String :=
  match Json.get? "text" m with
  | some .null => none
  | _ => some (textOf m "text" "")

theorem sizeOf_lt_of_lookup {key : String} {m : Members} {value : Json}
    (h : m.lookup key = some value) : sizeOf value < sizeOf m := by
  induction m with
  | nil => simp at h
  | cons member rest ih =>
    obtain ⟨k, v⟩ := member
    rw [List.lookup_cons] at h
    split at h
    · obtain rfl := Option.some.inj h
      simp only [List.cons.sizeOf_spec, Prod.mk.sizeOf_spec]
      omega
    · have := ih h
      simp only [List.cons.sizeOf_spec]
      omega

/-- An element and those below it. -/
def element : Json → PageElement
  | .obj m =>
    let children := match _found : Json.get? "children" m with
      | some (.arr all) => all.attach.map fun ⟨child, _⟩ => element child
      | _ => []
    .mk (textOf m "id" "?") (elementText m) (textOf m "tag" "li") children
      ((numberOf? m "appear_ms").getD (.whole 0)) (numberOf? m "hide_ms")
      (match Json.get? "find_errors" m with | some (.int n) => n | _ => 0)
      (table (objectOf m "on"))
  | _ => .mk "?" (some "") "li" [] (.whole 0) none 0 []
termination_by value => sizeOf value
decreasing_by
  have h := sizeOf_lt_of_lookup _found
  have : sizeOf child < sizeOf all := List.sizeOf_lt_of_mem ‹_›
  simp only [Json.arr.sizeOf_spec, Json.obj.sizeOf_spec] at h ⊢
  omega

end Document

open Document in
/-- The browser that a document describes. -/
def Scripted.ofJson (value : Json) : Scripted :=
  let m := members value
  { elements := (objectOf m "elements").map fun (key, value) => (key, element value)
    scripts := table (objectOf m "scripts")
    on := table (objectOf m "on") }

end BrowserSteps
