import BrowserSteps.Proofs.Report.PageContent

/-!
No text of a run is taken for a part of the page. The tags of the HTML report are determined by its
shape: how the run and its steps ended, how many messages each step has, and which parts are
present. All other texts are found in their places as they were put in.
-/

namespace BrowserSteps.Report.Html

open Markup

/-- What the tags of a page depend on. -/
structure Shape where
  status : Status
  artifacts : Bool
  log : Bool
  /-- The status of each step and the number of its messages. -/
  steps : List (Status × Nat)
  deriving DecidableEq, Repr

def Shape.of (r : RunResult) : Shape where
  status := r.status
  artifacts := r.artifacts.isSome
  log := !r.log.text.isEmpty
  steps := r.outcomes.map fun o => (o.status, o.messages.length)

/-- The tags of an element with these tags in it. -/
def within (name : String) (inner : List String) : List String :=
  ("<" ++ name ++ ">") :: inner ++ ["</" ++ name ++ ">"]

def statusTag (name : String) (status : Status) : String := "<" ++ name ++ statusClass status ++ ">"

/-- As many rows of the same tags. -/
def rowTags (count : Nat) (cells : List String) : List String :=
  (List.replicate count (within "tr" cells)).flatten

def cellTags (name : String) (count : Nat) : List String :=
  (List.replicate count (within name [])).flatten

def stepTags (status : Status) (messages : Nat) : List String :=
  within "tr" (cellTags "td" 5 ++ [statusTag "td" status, "</td>"] ++
    within "td" (List.replicate messages "<br>"))

/-- The tags of a page of a shape. -/
def Shape.tags (s : Shape) : List String :=
  ["<!DOCTYPE html>", "<html lang=\"ja\">", "<head>", "<meta charset=\"utf-8\">"] ++
  within "title" [] ++ within "style" [] ++ ["</head>", "<body>"] ++
  within "h1" [statusTag "span" s.status, "</span>"] ++
  within "table" (rowTags (if s.artifacts then 5 else 4) (within "th" [] ++ within "td" [])) ++
  within "h2" [] ++
  within "table" (rowTags 1 (cellTags "th" 3) ++ rowTags measureSlots.length (cellTags "td" 3)) ++
  within "h2" [] ++
  within "table" (rowTags 1 (cellTags "th" 7) ++
    s.steps.flatMap fun step => stepTags step.1 step.2) ++
  (if s.log then within "h2" [] ++ within "pre" [] else []) ++ ["</body>", "</html>"]

def Part.source? : Part → Option String
  | .tag name attributes => some ("<" ++ name ++ attributes ++ ">")
  | .text _ => none

/-- The tags of an outline. -/
def sources (parts : List Part) : List String := parts.filterMap Part.source?

@[simp] theorem sources_nil : sources [] = [] := rfl

@[simp] theorem sources_text (content : String) (rest : List Part) :
    sources (.text content :: rest) = sources rest := rfl

@[simp] theorem sources_tag (name attributes : String) (rest : List Part) :
    sources (.tag name attributes :: rest) = ("<" ++ name ++ attributes ++ ">") :: sources rest :=
  rfl

@[simp] theorem sources_bare (name : String) (rest : List Part) :
    sources (bare name :: rest) = ("<" ++ name ++ ">") :: sources rest := by
  rw [bare, sources_tag, String.append_empty]

@[simp] theorem sources_append (parts rest : List Part) :
    sources (parts ++ rest) = sources parts ++ sources rest := List.filterMap_append

@[simp] theorem sources_element (name : String) (content : List Part) :
    sources (element name content) = within name (sources content) := by
  simp [element, within, ← String.append_assoc]

theorem filterMap_tokens (parts : List Part) :
    (tokens parts).filterMap tagSource? = sources parts := by
  induction parts with
  | nil => rfl
  | cons part rest ih =>
      rw [tokens_cons, List.filterMap_append, ih]
      cases part with
      | tag name attributes =>
          have hsource : String.ofList ('<' :: (name.toList ++ attributes.toList) ++ ['>']) =
              "<" ++ name ++ attributes ++ ">" := by
            simp [← String.toList_inj]
          rw [sources_tag, ← hsource]
          rfl
      | text content =>
          have htext : (content.toList.flatMap escapeChar).filterMap (tagSource? ∘ .char) = [] :=
            List.filterMap_eq_nil_iff.mpr fun _ _ => rfl
          rw [Part.tokens, List.filterMap_map, htext, sources_text, List.nil_append]

theorem sources_texts (texts : List String) : sources (texts.map .text) = [] := by
  induction texts with
  | nil => rfl
  | cons text rest ih => exact ih

theorem sources_flatMap {α : Type} {row : α → List Part} {cells : List String}
    (same : ∀ item, sources (row item) = within "tr" cells) (items : List α) :
    sources (items.flatMap row) = rowTags items.length cells := by
  induction items with
  | nil => rfl
  | cons item rest ih =>
      rw [List.flatMap_cons, sources_append, same, ih]
      rfl

theorem sources_stepOutline (o : Outcome) :
    sources (stepOutline o) = stepTags o.status o.messages.length := by
  have hmessages (messages : List String) :
      sources (messages.flatMap fun m => [.text m, bare "br"]) =
        List.replicate messages.length "<br>" := by
    induction messages with
    | nil => rfl
    | cons m rest ih => simpa [List.replicate_succ] using ih
  simp [stepOutline, rowOutline, endingOutline, stepTags, cellOutline, cellTags, hmessages,
    statusTag]

theorem sources_steps (r : RunResult) :
    sources (r.outcomes.flatMap stepOutline) =
      (Shape.of r).steps.flatMap fun step => stepTags step.1 step.2 := by
  rw [Shape.of]
  induction r.outcomes with
  | nil => rfl
  | cons o rest ih =>
      rw [List.flatMap_cons, sources_append, sources_stepOutline, ih]
      rfl

theorem sources_measureOutline (r : RunResult) (slot : Int) :
    sources (measureOutline r slot) = within "tr" (cellTags "td" 3) := by
  simp [measureOutline, rowOutline, cellOutline, cellTags]

theorem sources_headingsOutline (headings : List String) :
    sources (headingsOutline headings) = rowTags 1 (cellTags "th" headings.length) := by
  have hcells : sources (headings.flatMap fun heading => element "th" [.text heading]) =
      cellTags "th" headings.length := by
    induction headings with
    | nil => rfl
    | cons heading rest ih =>
        rw [List.flatMap_cons, sources_append, ih, sources_element]
        rfl
  simp [headingsOutline, hcells, rowTags]

theorem sources_overviewOutline (r : RunResult) :
    sources (overviewOutline r) =
      rowTags (if (Shape.of r).artifacts then 5 else 4) (within "th" [] ++ within "td" []) := by
  rw [Shape.of]
  cases h : r.artifacts <;> simp [overviewOutline, h, factOutline, rowTags, List.replicate]

theorem sources_logOutline (r : RunResult) :
    sources (logOutline r) =
      if (Shape.of r).log then within "h2" [] ++ within "pre" [] else [] := by
  rw [logOutline, isEmpty_lines, Shape.of]
  cases r.log.text.isEmpty <;> simp

theorem sources_headOutline (r : RunResult) : sources (headOutline r) =
    ["<!DOCTYPE html>", "<html lang=\"ja\">", "<head>", "<meta charset=\"utf-8\">"] ++
      within "title" [] ++ within "style" [] ++ ["</head>", "<body>"] ++
      within "h1" [statusTag "span" r.status, "</span>"] := by
  have hstyle : sources (element "style" (styleSheet.map .text ++ [.text "\n"])) =
      within "style" [] := by
    rw [sources_element, sources_append, sources_texts]
    rfl
  simp [headOutline, openingOutline, styleOutline, hstyle, headlineOutline, statusOutline,
    statusTag]

theorem sources_outline (r : RunResult) : sources (outline r) = (Shape.of r).tags := by
  have hstatus : (Shape.of r).status = r.status := rfl
  have hmeasures : sources (measureSlots.flatMap (measureOutline r)) =
      rowTags measureSlots.length (cellTags "td" 3) :=
    sources_flatMap (sources_measureOutline r) measureSlots
  simp [outline, sources_headOutline, bodyOutline, tablesOutline, overviewTable,
    sources_overviewOutline, measureTable, sources_headingsOutline, hmeasures, stepTableOutline,
    sources_steps, sources_logOutline, endOutline, Shape.tags, hstatus]

theorem tags_htmlText (r : RunResult) : tags (htmlText r) = (Shape.of r).tags := by
  rw [tags, scan_htmlText, filterMap_tokens, sources_outline]

/-- No text of a run gets among the tags of its page. The tags are those of the shape, so that two
runs of one shape have the same, whatever their tags, names, selectors, messages, logs and places
are. What a reader finds in the title, the headline, the cells and the log is what was put in. -/
theorem htmlText_inert (r : RunResult) :
    tags (htmlText r) = (Shape.of r).tags ∧
    (∀ other, Shape.of other = Shape.of r → tags (htmlText other) = tags (htmlText r)) ∧
    tables (htmlText r) =
      [(overviewCells r).map fun cell => [[cell]], [] :: measureSlots.map (slotCells r),
        [] :: r.outcomes.map stepCells].map (·.map (·.map (·.map some))) ∧
    texts "title" (htmlText r) = [some ("uiprobe レポート - " ++ title r)] ∧
    texts "h1" (htmlText r) = [some (title r ++ "\n  [" ++ r.status.word ++ "]")] ∧
    texts "pre" (htmlText r) = if r.log.text.isEmpty then [] else [some r.log.text] := by
  refine ⟨tags_htmlText r, fun other same => ?_, tables_htmlText r, texts_title r, texts_h1 r,
    texts_pre r⟩
  rw [tags_htmlText, tags_htmlText, same]

/-- Names and messages that look like tags change nothing. -/
theorem markup_inert :
    tags (htmlText {
      tag := "</title><script>"
      outcomes := [{ index := 1, name := "</td>", action := "none", messages := ["<br>"] }] }) =
    tags (htmlText {
      outcomes := [{ index := 2, name := "a", action := "wait", messages := ["b"] }] }) :=
  (htmlText_inert _).2.1 _ rfl

end BrowserSteps.Report.Html
