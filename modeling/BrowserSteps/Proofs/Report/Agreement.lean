import BrowserSteps.Proofs.Report.JunitReading
import BrowserSteps.Proofs.Report.PageContent

/-!
The three reports of a run agree. They count the same outcomes, describe each of them in the same
place, and show the same status and the same log, as far as a reader of each can tell.
-/

namespace BrowserSteps

/-- The value at the end of a path of keys. -/
def Json.at? (path : List String) (value : Json) : Option Json :=
  path.foldlM (fun value key => match value with
    | .obj members => Json.get? key members
    | _ => none) value

namespace Report

open Xml

/-- The rows of the steps on a page: those of the last table, below its headings. -/
def stepRows (page : String) : List (List (List (Option String))) :=
  ((Html.tables page).getLast?.getD []).drop 1

/-- How many outcomes failed. -/
def failedCount (r : RunResult) : Nat := (r.outcomes.filter (·.status = .failed)).length

/-- All three reports count the outcomes, and those that failed. -/
structure Counts (r : RunResult) (suite : Element) (report : Json) (steps : List Json)
    (rows : List (List (List (Option String)))) : Prop where
  total : report.at? ["summary", "total"] = some (.int r.outcomes.length)
  tests : suite.attribute? "tests" = some (toString r.outcomes.length)
  cases : (suite.named "testcase").length = r.outcomes.length
  steps : steps.length = r.outcomes.length
  rows : rows.length = r.outcomes.length
  failed : report.at? ["summary", "failed"] = some (.int (failedCount r))
  failures : suite.attribute? "failures" = some (toString (failedCount r))
  elements : ((suite.named "testcase").flatMap (·.named "failure")).length = failedCount r
  passed : ∃ passed : Nat, report.at? ["summary", "passed"] = some (.int passed) ∧
    passed + failedCount r = r.outcomes.length

/-- A case, a JSON step and a row that describe an outcome. -/
structure Describes (o : Outcome) (case : Element) (step : Json)
    (row : List (List (Option String))) : Prop where
  caseName : case.attribute? "name" = some (Junit.indexText o.index ++ " " ++ o.name)
  caseTime : case.attribute? "time" = some (Junit.secondsText o.durationMillis)
  caseFailure : case.named "failure" ≠ [] ↔ o.status = .failed
  stepIndex : step.at? ["step_index"] = some (.int o.index)
  stepName : step.at? ["step_name"] = some (.str o.name)
  stepAction : step.at? ["action"] = some (.str o.action)
  stepSelector : step.at? ["selector"] = some (.str o.selector)
  stepTime : step.at? ["duration_ms"] = some (.float o.durationMillis)
  stepStatus : step.at? ["status"] = some (.str o.status.word)
  stepMessages : step.at? ["messages"] = some (.arr (o.messages.map .str))
  row : row = (Html.stepCells o).map (·.map some)

/-- The status that the reports show, and the log in them. -/
structure Shows (r : RunResult) (suite : Element) (report : Json) : Prop where
  json : report.at? ["status"] = some (.str "failed") ↔ 0 < failedCount r
  page : Html.texts "span" (htmlText r) = [some "[failed]"] ↔ 0 < failedCount r
  message : report.at? ["error_message"] = some (.str r.log.text)
  output : suite.named "system-out" ≠ [] ↔ r.log.text ≠ ""
  log : Html.texts "pre" (htmlText r) ≠ [] ↔ r.log.text ≠ ""

theorem failedCount_pos (r : RunResult) : 0 < failedCount r ↔ r.status = .failed := by
  rw [failedCount, List.length_pos_iff, ne_eq, List.filter_eq_nil_iff, RunResult.status]
  split
  next hfailed =>
    obtain ⟨o, member, hstatus⟩ := List.any_eq_true.mp hfailed
    exact iff_of_true (fun none => none o member hstatus) rfl
  next hpassed =>
    refine iff_of_false (not_not_intro fun o member hstatus => hpassed ?_) Status.noConfusion
    exact List.any_eq_true.mpr ⟨o, member, hstatus⟩

/-- A run that did not fail passed. -/
theorem word_status (r : RunResult) : r.status.word = "failed" ↔ 0 < failedCount r := by
  rw [failedCount_pos, RunResult.status]
  split <;> decide

/-- The cases of a suite, as they are read back. -/
theorem cases_normal (r : RunResult) : (Junit.suite r).normal.named "testcase" =
    r.outcomes.map fun o => (Junit.testCase (Html.title r) o).normal := by
  rw [Element.named_normal, Junit.named_testCase, List.map_map]
  rfl

theorem failureElements (suite : String) (o : Outcome) :
    ((Junit.testCase suite o).normal.named "failure").length =
      if o.status = .failed then 1 else 0 := by
  rw [Element.named_normal, List.length_map, Junit.named_failure]
  split <;> rfl

theorem length_failureElements (suite : String) (outcomes : List Outcome) :
    ((outcomes.map fun o => (Junit.testCase suite o).normal).flatMap (·.named "failure")).length =
      (outcomes.filter (·.status = .failed)).length := by
  induction outcomes with
  | nil => rfl
  | cons o rest ih =>
      rw [List.map_cons, List.flatMap_cons, List.length_append, ih, failureElements,
        List.filter_cons]
      by_cases hfailed : o.status = .failed
      · simp [hfailed, Nat.add_comm]
      · simp [hfailed]

theorem stepRows_htmlText (r : RunResult) :
    stepRows (htmlText r) = r.outcomes.map fun o => (Html.stepCells o).map (·.map some) := by
  rw [stepRows, Html.tables_htmlText]
  simp

theorem counts (r : RunResult) : Counts r (Junit.suite r).normal (content r)
    (r.outcomes.map Outcome.toJson) (stepRows (htmlText r)) where
  total := rfl
  tests := Element.attribute?_normal "tests" _
  cases := by rw [cases_normal, List.length_map]
  steps := List.length_map _
  rows := by rw [stepRows_htmlText, List.length_map]
  failed := rfl
  failures := Element.attribute?_normal "failures" _
  elements := by
    rw [cases_normal]
    exact length_failureElements _ _
  passed := ⟨r.outcomes.length - failedCount r, rfl,
    Nat.sub_add_cancel (List.length_filter_le _ _)⟩

theorem describes (suite : String) (o : Outcome) :
    Describes o (Junit.testCase suite o).normal o.toJson ((Html.stepCells o).map (·.map some)) where
  caseName := Element.attribute?_normal "name" _
  caseTime := Element.attribute?_normal "time" _
  caseFailure := by
    rw [← List.length_pos_iff, failureElements]
    split <;> simp [*]
  stepIndex := rfl
  stepName := rfl
  stepAction := rfl
  stepSelector := rfl
  stepTime := rfl
  stepStatus := rfl
  stepMessages := rfl
  row := rfl

theorem shows (r : RunResult) : Shows r (Junit.suite r).normal (content r) where
  json := by
    have hstatus : (content r).at? ["status"] = some (.str r.status.word) := rfl
    rw [hstatus, Option.some.injEq, Json.str.injEq, word_status]
  page := by
    rw [← word_status, Html.texts_span, RunResult.status]
    split <;> decide
  message := rfl
  output := by
    rw [Element.named_normal, Junit.named_output, Junit.output]
    split <;> simp_all [String.isEmpty_iff]
  log := by
    rw [Html.texts_pre]
    split <;> simp_all [String.isEmpty_iff]

/-- The three reports of a run agree. The document is read back with a suite that has a case for
every outcome; the JSON report is the text of a value that has a step, and the page has a row, for
each of them in the same place. All count the same outcomes and failures, and show the same status
and log. -/
theorem reports_agree (r : RunResult) :
    ∃ (suite : Element) (report : Json) (steps : List Json),
      read? (junitText r) = some (.branch "testsuites" [] [suite]) ∧
      jsonText r = report.deepText ∧ report.at? ["steps"] = some (.arr steps) ∧
      Counts r suite report steps (stepRows (htmlText r)) ∧
      (∀ (k : Nat) (o : Outcome), r.outcomes[k]? = some o →
        ∃ case step row, (suite.named "testcase")[k]? = some case ∧ steps[k]? = some step ∧
          (stepRows (htmlText r))[k]? = some row ∧ Describes o case step row) ∧
      Shows r suite report := by
  refine ⟨(Junit.suite r).normal, content r, r.outcomes.map Outcome.toJson, Junit.read?_junitText r,
    rfl, rfl, counts r, fun k o hk => ?_, shows r⟩
  refine ⟨(Junit.testCase (Html.title r) o).normal, o.toJson, (Html.stepCells o).map (·.map some),
    ?_, ?_, ?_, describes (Html.title r) o⟩
  · rw [cases_normal, List.getElem?_map, hk]
    rfl
  · rw [List.getElem?_map, hk]
    rfl
  · rw [stepRows_htmlText, List.getElem?_map, hk]
    rfl

end Report

end BrowserSteps
