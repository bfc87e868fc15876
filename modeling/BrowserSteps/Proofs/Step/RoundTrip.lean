import BrowserSteps.Proofs.Json.Spelling
import BrowserSteps.Proofs.Step.Writable

/-!
Steps that are written and read again. Whatever document a step list comes from, its numbers are within
the digit limit, so that it can be written; and what is written is read as the same steps. Only the
spelling of an invalid action is not kept: it is the word for invalid actions from then on.
-/

namespace BrowserSteps

/-- The word of a selector kind spells it, also where blanks and case do not matter. -/
theorem SelectorKind.resolve_word (kind : SelectorKind) : resolve kind.word = kind := by
  cases kind <;> decide

theorem Marker.resolve_word (marker : Marker) : resolve marker.word = marker := by
  cases marker <;> decide

theorem Action.resolve_word (action : Action) : resolve action.word = action := by
  cases action <;> decide

namespace Step

/-- A step as it is when it has been written and read again. -/
def reread (step : Step) : Step :=
  { step with rawAction := if step.action = .invalid then some Action.invalid.word else none }

/-- Beside the members of a step with an invalid action its word is kept. -/
theorem keepRawAction_toMembers (step : Step) :
    keepRawAction step.toMembers = step.toMembers ++
      if step.action = .invalid then [("rawAction", .str Action.invalid.word)] else [] := by
  have hget : Json.get? "action" step.toMembers = some (.str step.action.word) := by
    simp [Json.get?, toMembers, List.lookup_cons]
  simp only [keepRawAction, hget, Action.resolve_word]
  split
  next invalid => simp [Keyed.put, toMembers, invalid]
  next => exact (List.append_nil _).symm

/-- A field is read from the value under its first name. -/
theorem readField_of_get? {α : Type} {members : List (String × Json)} {name : String} {value : Json}
    (here : Json.get? name members = some value) (others : List String) (default : α)
    {convert : Json → Except Field.Fault α} {x : α} (converts : convert value = .ok x) :
    readField members (name :: others) default convert = .ok x := by
  simp [readField, here, converts]

/-- The members of a step are read as the step. -/
theorem ofJson_toJson (step : Step) : ofJson step.toJson = .ok step.reread := by
  have hget : ∀ member ∈ step.toMembers,
      Json.get? member.1 (keepRawAction step.toMembers) = some member.2 := by
    rw [keepRawAction_toMembers]
    simp [toMembers, Json.get?, List.lookup_cons]
  have hraw : readField (keepRawAction step.toMembers) ["rawAction", "raw_action"] none
      Field.optionalText = .ok step.reread.rawAction := by
    rw [keepRawAction_toMembers]
    by_cases invalid : step.action = .invalid <;>
      simp [readField, toMembers, Json.get?, List.lookup_cons, invalid, reread, Field.optionalText,
        Field.text, Except.map]
  have htext (s : String) : Field.textOrNull (.str s) = .ok s := rfl
  have hinteger (n : Int) : Field.integer (.int n) = .ok n := rfl
  have htruth (b : Bool) : Field.truth (.bool b) = .ok b := rfl
  have hkind : Field.choice .unknown SelectorKind.resolve (.str step.selectorKind.word) =
      .ok step.selectorKind := congrArg Except.ok (SelectorKind.resolve_word _)
  have hmarker : Field.choice .none Marker.resolve (.str step.marker.word) = .ok step.marker :=
    congrArg Except.ok (Marker.resolve_word _)
  have haction : Field.choice .invalid Action.resolve (.str step.action.word) = .ok step.action :=
    congrArg Except.ok (Action.resolve_word _)
  simp only [toJson, ofJson, ofMembers]
  generalize keepRawAction step.toMembers = members at hget hraw ⊢
  simp only [toMembers, List.forall_mem_cons] at hget
  obtain ⟨name, selectorKind, selectorValue, marker, action, actionValue, measureSlot, stopOnError,
    timeoutSeconds, capture, jumpTarget, -⟩ := hget
  rw [readField_of_get? name [] _ (htext _), readField_of_get? selectorKind _ _ hkind,
    readField_of_get? selectorValue _ _ (htext _), readField_of_get? marker [] _ hmarker,
    readField_of_get? action [] _ haction, readField_of_get? actionValue _ _ (htext _),
    readField_of_get? measureSlot _ _ (hinteger _), readField_of_get? stopOnError _ _ (htruth _),
    readField_of_get? timeoutSeconds _ _ (hinteger _), readField_of_get? capture [] _ (htruth _),
    readField_of_get? jumpTarget _ _ (hinteger _), hraw]
  rfl

theorem Writable.legible {step : Step} (h : step.Writable) : step.toJson.All Json.Legible := by
  have distinct : (step.toMembers.map (·.1)).Nodup := by
    simp only [toMembers, List.map_cons, List.map_nil]
    decide
  refine ⟨distinct, Json.allMembers_iff.mpr ?_⟩
  simp only [toMembers, List.forall_mem_cons]
  exact ⟨trivial, trivial, trivial, trivial, trivial, trivial, h.measureSlot, trivial,
    h.timeoutSeconds, trivial, h.jumpTarget, List.forall_mem_nil _⟩

theorem legible_document {steps : List Step} (h : ∀ step ∈ steps, step.Writable) :
    (Json.arr (steps.map toJson)).All Json.Legible := by
  refine ⟨trivial, Json.allItems_iff.mpr fun item member => ?_⟩
  obtain ⟨step, among, rfl⟩ := List.mem_map.mp member
  exact (h step among).legible

theorem listOfItems?_toJson (steps : List Step) :
    listOfItems? (steps.map toJson) = some (steps.map reread) := by
  induction steps with
  | nil => rfl
  | cons step steps ih => simp [listOfItems?, ofJson_toJson, ih]

theorem isBlankText_of_spells {items : List Json} {text : List Char}
    (h : Json.Spells (.value (.arr items)) text) :
    Text.isBlankText (String.ofList text) = false := by
  rw [Text.isBlankText, String.toList_ofList]
  cases h <;> rfl

/-- However its steps are laid out, a document is read as them. -/
theorem parse_of_spells {steps : List Step} {text : List Char}
    (h : Json.Spells (.value (.arr (steps.map toJson))) text) :
    parse (String.ofList text) = .ok (steps.map reread) := by
  have hsteps : listOfJson (.arr (steps.map toJson)) = steps.map reread := by
    rw [listOfJson, listOfItems?_toJson, Option.getD_some]
  simp only [parse, isBlankText_of_spells h, Json.read_of_spells h, hsteps, Bool.false_eq_true,
    if_false]

theorem dump_spells {steps : List Step} (h : ∀ step ∈ steps, step.Writable) (pretty : Bool) :
    ∃ text, dump steps pretty = .ok (String.ofList text) ∧
      Json.Spells (.value (.arr (steps.map toJson))) text := by
  have short : steps.any hasLongNumber = false := by
    rw [List.any_eq_false]
    intro step member long
    rw [writable_iff.mp (h step member)] at long
    cases long
  simp only [dump, short, Bool.false_eq_true, if_false]
  cases pretty with
  | false => exact ⟨_, rfl, Json.spells_flatChars _ (legible_document h)⟩
  | true => exact ⟨_, rfl, Json.spells_deepChars _ (legible_document h) 0⟩

/-- Steps that were read can be written, and read again they are the same steps, in either layout and
whatever texts and numbers they hold. The spelling of an invalid action becomes the word for invalid
actions, and any other spelling is dropped. -/
theorem parse_dump {text : String} {steps : List Step} (h : parse text = .ok steps) (pretty : Bool) :
    ∃ written, dump steps pretty = .ok written ∧ parse written = .ok (steps.map fun step =>
      { step with rawAction := if step.action = .invalid then some "invalid" else none }) := by
  obtain ⟨written, heq, spells⟩ := dump_spells (writable_of_parse h) pretty
  refine ⟨_, heq, ?_⟩
  rw [parse_of_spells spells]
  rfl

/-- A step that has an action and a selector kind of its own, a text with a line break and a number
beyond 64 bits. -/
def oddStep : Step :=
  { name := "a\n\"", selectorKind := .unknown, action := .invalid,
    measureSlot := 100000000000000000000, rawAction := some "Hop" }

theorem parse_dump_oddStep :
    let text := "[\x7b\"name\": \"a\\n\\u0022\", \"selectorType\": \"css\", \"action\": \"Hop\", " ++
      "\"measure\": \" 100000000000000000000.0\"\x7d]"
    parse text = .ok [oddStep] ∧
      ∀ pretty, ∃ written, dump [oddStep] pretty = .ok written ∧
        parse written = .ok [{ oddStep with rawAction := some "invalid" }] := by
  intro text
  have hread : parse text = .ok [oddStep] := by decide +kernel
  exact ⟨hread, parse_dump hread⟩

end Step

end BrowserSteps
