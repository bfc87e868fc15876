import BrowserSteps.Proofs.Template.Filling
import BrowserSteps.Proofs.Template.Occurrence

/-!
Steps from a filled in document. Filling in the text of a document does to its steps what filling in
their texts would: the name, the selector and the action value of each step are filled in, and nothing
else of it changes.
-/

namespace BrowserSteps

open Template

theorem SelectorKind.word_unmarked (kind : SelectorKind) : '_' ∉ kind.word.toList := by
  cases kind <;> decide

theorem Marker.word_unmarked (marker : Marker) : '_' ∉ marker.word.toList := by
  cases marker <;> decide

theorem Action.word_unmarked (action : Action) : '_' ∉ action.word.toList := by
  cases action <;> decide

namespace Step

/-- A step with its texts changed. -/
def mapTexts (f : String → String) (step : Step) : Step :=
  { step with
    name := f step.name
    selectorValue := f step.selectorValue
    actionValue := f step.actionValue }

theorem keysUnmarked_toJson (step : Step) : step.toJson.All Json.KeysUnmarked := by
  refine ⟨?_, Json.allMembers_iff.mpr ?_⟩
  · simp only [Json.KeysUnmarked, toMembers, List.forall_mem_cons]
    decide
  · simp only [toMembers, List.forall_mem_cons]
    exact ⟨trivial, trivial, trivial, trivial, trivial, trivial, trivial, trivial, trivial, trivial,
      trivial, List.forall_mem_nil _⟩

theorem keysUnmarked_document (steps : List Step) :
    (Json.arr (steps.map toJson)).All Json.KeysUnmarked := by
  refine ⟨trivial, Json.allItems_iff.mpr fun item member => ?_⟩
  obtain ⟨step, -, rfl⟩ := List.mem_map.mp member
  exact keysUnmarked_toJson step

/-- The words of the format stay, so that the members are those of the step with its texts filled in. -/
theorem mapTexts_toJson {word : List Char} (mark : IsMark word) (value : List Char) (step : Step) :
    step.toJson.mapTexts (fill word value) = (step.mapTexts (fill word value)).toJson := by
  simp only [toJson, toMembers, Json.mapTexts, Json.mapMembers, mapTexts,
    fill_of_unmarked value mark step.selectorKind.word_unmarked,
    fill_of_unmarked value mark step.marker.word_unmarked,
    fill_of_unmarked value mark step.action.word_unmarked]

theorem mapTexts_document {word : List Char} (mark : IsMark word) (value : List Char)
    (steps : List Step) :
    (Json.arr (steps.map toJson)).mapTexts (fill word value) =
      .arr ((steps.map (mapTexts (fill word value))).map toJson) := by
  simp only [Json.mapTexts, Json.mapItems_eq_map, List.map_map, Json.arr.injEq]
  exact List.map_congr_left fun step _ => mapTexts_toJson mark value step

end Step

namespace Template

/-- A key that is a mark replaces its own occurrences. -/
theorem substituteKey_of_mark {key : String} (mark : IsMark key.toList) (value text : String) :
    substituteKey key value text =
      .ok (String.ofList (Pattern.replaceWord key.toList value.toList text.toList)) :=
  substituteKey_of_noSign (mt String.toList_eq_nil_iff.mpr mark.ne_nil) mark.noSign value text

/-- Filling in the document of steps that were read, in either layout, yields the steps with every
occurrence of the key in their texts replaced, from left to right. -/
theorem build_dump {text : String} {steps : List Step} (h : Step.parse text = .ok steps)
    {key value : String} (mark : IsMark key.toList) (plain : IsPlain value.toList) (pretty : Bool) :
    ∃ document, Step.dump steps pretty = .ok document ∧
      build document [(key, value)] = .ok (steps.map fun step =>
        { step with
          name := fill key.toList value.toList step.name
          selectorValue := fill key.toList value.toList step.selectorValue
          actionValue := fill key.toList value.toList step.actionValue
          rawAction := if step.action = .invalid then some "invalid" else none }) := by
  obtain ⟨written, heq, spells⟩ := Step.dump_spells (Step.writable_of_parse h) pretty
  obtain ⟨filled, hspells, hfilled⟩ :=
    exists_filledAs value.toList mark plain spells (Step.keysUnmarked_document steps)
  have nonempty : (String.ofList written).isEmpty = false := by
    obtain ⟨first, more, rfl, -⟩ := spells.head
    simp [← Bool.not_eq_true, String.isEmpty_iff]
  simp only [Json.Part.mapTexts, Step.mapTexts_document mark] at hspells
  have hsubstitute : substitute (String.ofList written) [(key, value)] =
      .ok (String.ofList filled) := by
    simp only [substitute, substituteKey_of_mark mark, String.toList_ofList,
      hfilled.replaceWord_eq _ mark]
    rfl
  refine ⟨_, heq, ?_⟩
  rw [build, nonempty, if_neg Bool.false_ne_true, hsubstitute]
  simp only [Step.parse_of_spells hspells, Except.mapError, List.map_map]
  rfl

theorem build_dump_placeholder :
    let text := "[\x7b\"name\": \"go __U__\\n\", \"actionValue\": \"__U____U__\", " ++
      "\"action\": \"Hop\"\x7d]"
    let step : Step := { name := "go __U__\n", actionValue := "__U____U__", action := .invalid }
    let filled : Step :=
      { step with name := "go /a?b=c\n", actionValue := "/a?b=c/a?b=c", rawAction := some "invalid" }
    Step.parse text = .ok [{ step with rawAction := some "Hop" }] ∧
      ∀ pretty, ∃ document, Step.dump [{ step with rawAction := some "Hop" }] pretty = .ok document ∧
        build document [("__U__", "/a?b=c")] = .ok [filled] := by
  intro text step filled
  have hread : Step.parse text = .ok [{ step with rawAction := some "Hop" }] := by decide +kernel
  have mark : IsMark "__U__".toList := by decide
  have plain : IsPlain "/a?b=c".toList := by decide
  refine ⟨hread, fun pretty => ?_⟩
  obtain ⟨document, hdump, hbuild⟩ := build_dump hread mark plain pretty
  refine ⟨document, hdump, ?_⟩
  rw [hbuild]
  decide +kernel

end Template

end BrowserSteps
