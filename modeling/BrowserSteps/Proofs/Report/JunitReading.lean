import BrowserSteps.Proofs.Calendar
import BrowserSteps.Proofs.Json.Token
import BrowserSteps.Proofs.Report.XmlCharacters
import BrowserSteps.Proofs.Report.XmlLines
import BrowserSteps.Report.Junit

/-!
The report for test runners as its reader finds it. The document is always read back, with
everything that it carries: the name of the suite, the names of the cases, what a failed step says
and the log. It has allowed characters only if these have.
-/

namespace BrowserSteps.Report

open Xml

section

theorem isAllowed_of_isDigit {c : Char} (digit : c.isDigit = true) : isAllowed c = true :=
  isAllowed_of_isAlphanum (by simp [Char.isAlphanum, digit])

theorem allowed_toDigits (n : Nat) : Allowed (Nat.toDigits 10 n) :=
  fun c member => isAllowed_of_isDigit (Json.isDigit_of_mem_toDigits c member)

theorem allowed_toString_nat (n : Nat) : Allowed (toString n).toList := by
  rw [Nat.toString_eq_repr, Nat.repr_eq_ofList_toDigits, String.toList_ofList]
  exact allowed_toDigits n

theorem allowed_toString_int (n : Int) : Allowed (toString n).toList := by
  rw [Json.toList_toString_int]
  split
  · exact allowed_toDigits n.natAbs
  · exact allowed_cons.mpr ⟨rfl, allowed_toDigits n.natAbs⟩

theorem allowed_replicate (n : Nat) {c : Char} (allowed : isAllowed c = true) :
    Allowed (List.replicate n c) := fun d member => by
  rwa [List.eq_of_mem_replicate member]

theorem allowed_padded (width n : Nat) : Allowed (DateTime.padded width n).toList :=
  fun c member => isAllowed_of_isDigit (DateTime.isDigit_of_mem_padded c member)

theorem allowed_indexText (n : Int) : Allowed (Junit.indexText n).toList := by
  rw [Junit.indexText]
  split
  · rw [String.toList_append, allowed_append]
    exact ⟨by decide, allowed_padded 2 n.natAbs⟩
  · exact allowed_padded 3 n.natAbs

theorem Xml.Allowed.take {text : List Char} (h : Allowed text) (n : Nat) : Allowed (text.take n) :=
  fun c member => h c (List.mem_of_mem_take member)

theorem Xml.Allowed.drop {text : List Char} (h : Allowed text) (n : Nat) : Allowed (text.drop n) :=
  fun c member => h c (List.mem_of_mem_drop member)

theorem allowed_placeText (units places : Nat) :
    Allowed (Decimal.placeText units places).toList := by
  have hdigits := allowed_toString_nat units
  have hpadded (n : Nat) :
      Allowed (String.ofList (List.replicate n '0') ++ toString units).toList := by
    rw [String.toList_append, String.toList_ofList, allowed_append]
    exact ⟨allowed_replicate _ rfl, hdigits⟩
  simp only [Decimal.placeText]
  split
  · exact hdigits
  · simp only [String.toList_append, String.toList_ofList, allowed_append]
    rw [← String.toList_ofList (l := List.replicate _ '0'), ← String.toList_append]
    exact ⟨⟨(hpadded _).take _, by decide⟩, (hpadded _).drop _⟩

theorem allowed_fixedText (places : Nat) (x : Float) :
    Allowed (Decimal.fixedText places x).toList := by
  unfold Decimal.fixedText
  split
  · decide
  · decide
  · decide
  · simp only [String.toList_append, allowed_append]
    refine ⟨?_, allowed_placeText _ _⟩
    split <;> decide

end

namespace Junit

/-- Attributes are legal by their keys, whatever their values are. -/
theorem legalTag_of_keys {name : String} {attributes : List (String × String)}
    (keys : List String) (hkeys : attributes.map Prod.fst = keys) (legal : isName name.toList)
    (names : ∀ key ∈ keys, isName key.toList) (distinct : keys.Nodup) :
    LegalTag name attributes where
  name := legal
  keys pair member := names pair.1 (hkeys ▸ List.mem_map_of_mem member)
  distinct := hkeys ▸ distinct

/-- A tag without attributes. -/
theorem legalTag_bare {name : String} (legal : isName name.toList) : LegalTag name [] :=
  legalTag_of_keys [] rfl legal (by decide) (by decide)

theorem legalTag_property (name value : String) :
    LegalTag "property" [("name", name), ("value", value)] :=
  legalTag_of_keys ["name", "value"] rfl (by decide) (by decide) (by decide)

theorem legalTag_failure (message : String) : LegalTag "failure" [("message", message)] :=
  legalTag_of_keys ["message"] rfl (by decide) (by decide) (by decide)

theorem legalTag_testCase (name suite time : String) :
    LegalTag "testcase" [("name", name), ("classname", suite), ("time", time)] :=
  legalTag_of_keys ["name", "classname", "time"] rfl (by decide) (by decide) (by decide)

theorem legalTag_suite (name tests failures time : String) :
    LegalTag "testsuite"
      [("name", name), ("tests", tests), ("failures", failures), ("time", time)] :=
  legalTag_of_keys ["name", "tests", "failures", "time"] rfl (by decide) (by decide) (by decide)

theorem legal_property (r : RunResult) (slot : Int) : (property r slot).Legal :=
  .leaf _ (legalTag_property _ _)

theorem legal_failure (messages : List String) : (failure messages).Legal :=
  .leaf _ (legalTag_failure _)

theorem legal_testCase (suite : String) (o : Outcome) : (testCase suite o).Legal := by
  refine .branch (legalTag_testCase _ _ _) fun child member => ?_
  split at member
  · obtain rfl := List.mem_singleton.mp member
    exact legal_failure o.messages
  · cases member

theorem legal_output (r : RunResult) : ∀ e ∈ output r, e.Legal := fun e member => by
  unfold output at member
  split at member
  · cases member
  · obtain rfl := List.mem_singleton.mp member
    exact .leaf _ (legalTag_bare (by decide))

/-- The suite of a result. -/
def suite (r : RunResult) : Element :=
  let counts := summarize r.outcomes
  .branch "testsuite" [("name", Html.title r), ("tests", toString counts.total),
      ("failures", toString counts.failed), ("time", secondsText r.durationMillis)]
    (.branch "properties" [] (measureSlots.map (property r)) ::
      r.outcomes.map (testCase (Html.title r)) ++ output r)

theorem suites_eq (r : RunResult) : suites r = .branch "testsuites" [] [suite r] := rfl

theorem legal_suite (r : RunResult) : (suite r).Legal := by
  refine .branch (legalTag_suite _ _ _ _) fun child member => ?_
  rcases List.mem_append.mp member with member | member
  · rcases List.mem_cons.mp member with rfl | member
    · refine .branch (legalTag_bare (by decide)) fun child member => ?_
      obtain ⟨slot, -, rfl⟩ := List.mem_map.mp member
      exact legal_property r slot
    · obtain ⟨o, -, rfl⟩ := List.mem_map.mp member
      exact legal_testCase _ o
  · exact legal_output r child member

theorem legal_suites (r : RunResult) : (suites r).Legal := by
  refine .branch (legalTag_bare (by decide)) fun child member => ?_
  obtain rfl := List.mem_singleton.mp member
  exact legal_suite r

/-- The report is read back: one root with one suite in it. -/
theorem read?_junitText (r : RunResult) :
    read? (junitText r) = some (.branch "testsuites" [] [(suite r).normal]) := by
  rw [junitText, read?_document (legal_suites r)]
  rfl

/-- A reader that joins line breaks finds those of the texts joined. -/
theorem read?_joined_junitText (r : RunResult) :
    read? (joinedText (junitText r)) =
      some (.branch "testsuites" [] [(suite r).normal.joined]) := by
  rw [junitText, read?_joinedText (legal_suites r)]
  rfl

theorem name_of_mem_output {r : RunResult} {e : Element} (member : e ∈ output r) :
    e.name = "system-out" := by
  unfold output at member
  split at member
  · cases member
  · rw [List.mem_singleton.mp member]
    rfl

/-- The cases of a suite, one for every outcome. -/
theorem named_testCase (r : RunResult) :
    (suite r).named "testcase" = r.outcomes.map (testCase (Html.title r)) := by
  have hcases : (r.outcomes.map (testCase (Html.title r))).filter (·.name = "testcase") =
      r.outcomes.map (testCase (Html.title r)) := by
    refine List.filter_eq_self.mpr fun e member => ?_
    obtain ⟨o, -, rfl⟩ := List.mem_map.mp member
    rfl
  have houtput : (output r).filter (·.name = "testcase") = [] := by
    refine List.filter_eq_nil_iff.mpr fun e member => ?_
    simp [name_of_mem_output member]
  change List.filter _ (Element.branch "properties" _ _ :: (r.outcomes.map _ ++ output r)) = _
  rw [List.filter_cons_of_neg (by simp [Element.name]), List.filter_append, hcases, houtput,
    List.append_nil]

/-- The log of a suite. -/
theorem named_output (r : RunResult) : (suite r).named "system-out" = output r := by
  have hcases : (r.outcomes.map (testCase (Html.title r))).filter (·.name = "system-out") = [] := by
    refine List.filter_eq_nil_iff.mpr fun e member => ?_
    obtain ⟨o, -, rfl⟩ := List.mem_map.mp member
    exact of_decide_eq_false rfl
  have houtput : (output r).filter (·.name = "system-out") = output r := by
    refine List.filter_eq_self.mpr fun e member => ?_
    simp [name_of_mem_output member]
  change List.filter _ (Element.branch "properties" _ _ :: (r.outcomes.map _ ++ output r)) = _
  rw [List.filter_cons_of_neg (by simp [Element.name]), List.filter_append, hcases, houtput,
    List.nil_append]

theorem named_failure (suite : String) (o : Outcome) :
    (testCase suite o).named "failure" =
      if o.status = .failed then [failure o.messages] else [] := by
  unfold testCase
  split <;> rfl

/-- The texts from the run that a report carries. -/
def carried (r : RunResult) : List String :=
  [r.tag, r.log.text] ++ r.outcomes.flatMap fun o =>
    o.name :: if o.status = .failed then o.messages else []

theorem allowed_intercalate (messages : List String) :
    Allowed ("\n".intercalate messages).toList ↔ ∀ m ∈ messages, Allowed m.toList := by
  induction messages with
  | nil => simp
  | cons first rest ih =>
      cases rest with
      | nil => simp
      | cons second rest =>
          rw [String.intercalate_cons_cons, String.toList_append, String.toList_append,
            allowed_append, allowed_append, ih, List.forall_mem_cons]
          simp +decide

/-- A word that stands for an empty text changes nothing, if it is allowed. -/
theorem allowed_of_default {word : String} (allowed : Allowed word.toList) (s : String) :
    Allowed (if s.isEmpty then word else s).toList ↔ Allowed s.toList := by
  split
  next hempty =>
    rw [String.isEmpty_iff.mp hempty]
    exact iff_of_true allowed allowed_nil
  next => rfl

theorem allowed_title (r : RunResult) : Allowed (Html.title r).toList ↔ Allowed r.tag.toList :=
  allowed_of_default (by decide) r.tag

theorem allowed_secondsText (millis : Float) : Allowed (secondsText millis).toList :=
  allowed_fixedText 3 (millis / 1000)

theorem allowed_property (r : RunResult) (slot : Int) (level : Nat) :
    Allowed ((property r slot).chars level) := by
  have hslot : Allowed (slotName slot).toList := by
    rw [slotName, String.toList_append, allowed_append]
    exact ⟨by decide, allowed_toString_int slot⟩
  have hvalue : Allowed (((r.measureTime slot).map (Number.fixedText 3)).getD "").toList := by
    rcases r.measureTime slot with _ | n | x
    · exact allowed_nil
    · exact allowed_fixedText 3 _
    · exact allowed_fixedText 3 x
  rw [property, allowed_leaf (legalTag_property _ _)]
  simp [hslot, hvalue]

theorem allowed_failure (messages : List String) (level : Nat) :
    Allowed ((failure messages).chars level) ↔ ∀ m ∈ messages, Allowed m.toList := by
  have hfailed : Allowed "failed".toList := by decide
  rw [failure, allowed_leaf (legalTag_failure _), allowed_of_default hfailed, allowed_intercalate,
    List.forall_mem_singleton, and_iff_right_iff_imp]
  intro hall
  cases messages with
  | nil => exact hfailed
  | cons first rest => exact hall first List.mem_cons_self

theorem allowed_testCase {suite : String} (hsuite : Allowed suite.toList) (o : Outcome)
    (level : Nat) :
    Allowed ((testCase suite o).chars level) ↔
      Allowed o.name.toList ∧ (o.status = .failed → ∀ m ∈ o.messages, Allowed m.toList) := by
  rw [testCase, allowed_branch (legalTag_testCase _ _ _)]
  split
  next hfailed =>
    simp +decide [allowed_indexText, hsuite, allowed_secondsText, hfailed, allowed_failure]
  next hpassed => simp +decide [allowed_indexText, hsuite, allowed_secondsText, hpassed]

theorem allowed_output (r : RunResult) (level : Nat) :
    (∀ e ∈ output r, Allowed (e.chars level)) ↔ Allowed r.log.text.toList := by
  unfold output
  split
  next hempty => simp [String.isEmpty_iff.mp hempty]
  next =>
    rw [List.forall_mem_singleton, allowed_leaf (legalTag_bare (by decide))]
    simp

theorem allowed_suite (r : RunResult) (level : Nat) :
    Allowed ((suite r).chars level) ↔ Allowed r.tag.toList ∧ Allowed r.log.text.toList ∧
      ∀ o ∈ r.outcomes, Allowed o.name.toList ∧
        (o.status = .failed → ∀ m ∈ o.messages, Allowed m.toList) := by
  rw [suite, allowed_branch (legalTag_suite _ _ _ _)]
  have hproperties : Allowed ((Element.branch "properties" [] (measureSlots.map (property r))).chars
      (level + 1)) := by
    rw [allowed_branch (legalTag_bare (by decide))]
    refine ⟨List.forall_mem_nil _, fun child member => ?_⟩
    obtain ⟨slot, -, rfl⟩ := List.mem_map.mp member
    exact allowed_property r slot _
  have hvalues : (∀ pair ∈ [("name", Html.title r),
      ("tests", toString (summarize r.outcomes).total),
      ("failures", toString (summarize r.outcomes).failed), ("time", secondsText r.durationMillis)],
      Allowed pair.2.toList) ↔ Allowed r.tag.toList := by
    simp only [List.forall_mem_cons, allowed_title, allowed_toString_nat, allowed_secondsText,
      true_and, and_iff_left_iff_imp]
    exact fun _ => List.forall_mem_nil _
  rw [hvalues]
  refine and_congr_right fun htag => ?_
  rw [List.cons_append, List.forall_mem_cons, List.forall_mem_append, List.forall_mem_map,
    allowed_output, and_iff_right hproperties, and_comm]
  refine and_congr_right fun _ => forall₂_congr fun o _ => ?_
  exact allowed_testCase ((allowed_title r).mpr htag) o _

/-- The report has allowed characters only exactly if what it carries has. -/
theorem allowed_junitText (r : RunResult) :
    Allowed (junitText r).toList ↔ ∀ s ∈ carried r, Allowed s.toList := by
  have houtcome (o : Outcome) :
      (∀ s ∈ o.name :: (if o.status = .failed then o.messages else []), Allowed s.toList) ↔
        Allowed o.name.toList ∧ (o.status = .failed → ∀ m ∈ o.messages, Allowed m.toList) := by
    rw [List.forall_mem_cons]
    split <;> simp [*]
  rw [junitText, allowed_document, suites_eq,
    allowed_branch (legalTag_bare (by decide)),
    List.forall_mem_singleton, allowed_suite, carried, List.forall_mem_append, List.forall_mem_cons,
    List.forall_mem_singleton, List.forall_mem_flatMap, and_assoc]
  simp only [houtcome]
  exact and_iff_right (List.forall_mem_nil _)

/-- What a reader of the report finds. Whatever the run recorded, the document is read back with the
name of the suite, one case for every outcome under its name, what each failed outcome says first
and in full, and the log if there is any. A reader that joins line breaks finds the same, but for
the line breaks of its texts. The characters of the document are all allowed exactly if those of the
texts from the run are. -/
theorem junitText_readBack (r : RunResult) :
    (Allowed (junitText r).toList ↔ ∀ s ∈ carried r, Allowed s.toList) ∧
    ∃ suite, read? (junitText r) = some (.branch "testsuites" [] [suite]) ∧
      read? (joinedText (junitText r)) = some (.branch "testsuites" [] [suite.joined]) ∧
      suite.name = "testsuite" ∧ suite.attribute? "name" = some (Html.title r) ∧
      (suite.named "testcase").map (·.attribute? "name") =
        r.outcomes.map (fun o => some (indexText o.index ++ " " ++ o.name)) ∧
      (suite.named "testcase").map (fun case =>
          (case.named "failure").map fun failure => (failure.attribute? "message", failure.text)) =
        r.outcomes.map (fun o =>
          let all := "\n".intercalate o.messages
          if o.status = .failed then
            [(some (o.messages.head?.getD "failed"), if all.isEmpty then "failed" else all)]
          else []) ∧
      (suite.named "system-out").map (·.text) = if r.log.text = "" then [] else [r.log.text] := by
  refine ⟨allowed_junitText r, (suite r).normal, read?_junitText r,
    read?_joined_junitText r, ?_, ?_, ?_, ?_, ?_⟩
  · rw [Element.name_normal]
    rfl
  · rw [Element.attribute?_normal]
    rfl
  · simp only [Element.named_normal, named_testCase, List.map_map]
    refine List.map_congr_left fun o _ => ?_
    exact Element.attribute?_normal "name" _
  · simp only [Element.named_normal, named_testCase, List.map_map]
    refine List.map_congr_left fun o _ => ?_
    simp only [Function.comp_apply, Element.named_normal, named_failure, List.map_map]
    split
    · simp only [List.map_cons, List.map_nil, Function.comp_apply, Element.attribute?_normal,
        Element.text_normal]
      rfl
    · rfl
  · simp only [Element.named_normal, named_output, List.map_map, output, String.isEmpty_iff]
    split <;> rfl

/-- A control character is not allowed, and no escape hides it. -/
theorem control_not_allowed :
    ¬ Allowed (junitText { log := ⟨["\x1b"]⟩ }).toList := by
  rw [allowed_junitText]
  decide

end Junit

end BrowserSteps.Report
