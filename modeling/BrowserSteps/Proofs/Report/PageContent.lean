import BrowserSteps.Proofs.Report.PageReading
import BrowserSteps.Proofs.Text.Lines

/-!
What stands in the HTML report. A reader of the page finds the tokens of its outline, and by them
the texts of the title, the headline and the log, and three tables with a row for every fact of the
run, every slot and every step. The texts are those that were put in.
-/

namespace BrowserSteps.Report.Html

open Markup

/-- A log without lines is an empty one. -/
theorem isEmpty_lines (log : Log) : log.lines.isEmpty = log.text.isEmpty := by
  rw [Log.lines, Text.splitLines, List.isEmpty_map, Bool.eq_iff_iff, List.isEmpty_iff,
    String.isEmpty_iff, ← String.toList_eq_nil_iff]
  refine ⟨fun hlines => ?_, fun htext => by rw [htext]; rfl⟩
  refine Classical.byContradiction fun htext => Text.lines_ne_nil htext ?_
  simpa using hlines

/-- The names of the tags in a cell, a row, a table, and between the head and the log. -/
def cellNames : List String := ["br"]

def rowNames : List String := ["td", "/td", "th", "/th"] ++ cellNames

def tableNames : List String := ["tr", "/tr"] ++ rowNames

def bodyNames : List String := ["table", "/table", "h2", "/h2"] ++ tableNames

def openingNames : List String := ["!DOCTYPE", "html", "head", "meta"]

def styleNames : List String := ["style", "/style", "/head", "body"]

def headlineNames : List String := ["h1", "/h1", "span", "/span"]

def headNames : List String := openingNames ++ ["title", "/title"] ++ styleNames ++ headlineNames

def endNames : List String := ["h2", "/h2", "pre", "/pre", "/body", "/html"]

theorem among_messages (messages : List String) :
    Among cellNames (messages.flatMap fun m => [.text m, bare "br"]) := by
  simp [cellNames]

theorem among_cellOutline (content : String) : Among rowNames (cellOutline content) := by
  simp [cellOutline, rowNames]

theorem among_endingOutline (status : Status) (messages : List String) :
    Among rowNames (endingOutline status messages) := by
  simp [endingOutline, rowNames, cellNames]

theorem among_rowOutline {inner : List Part} (h : Among rowNames inner) :
    Among tableNames (rowOutline inner) := by
  have hinner : Among tableNames inner := h.mono (List.subset_append_right _ _)
  simp [rowOutline, hinner]
  simp [tableNames]

theorem among_headingsOutline (headings : List String) :
    Among tableNames (headingsOutline headings) := by
  simp [headingsOutline, tableNames, rowNames]

theorem among_measureTable (r : RunResult) : Among tableNames (measureTable r) := by
  simp [measureTable, among_headingsOutline, measureOutline, among_rowOutline, among_cellOutline]

theorem among_stepTable (r : RunResult) : Among tableNames (stepTableOutline r) := by
  simp [stepTableOutline, among_headingsOutline, stepOutline, among_rowOutline, among_cellOutline,
    among_endingOutline]

theorem among_overviewTable (r : RunResult) : Among tableNames (overviewTable r) := by
  cases h : r.artifacts <;>
    simp [overviewTable, overviewOutline, h, factOutline, tableNames, rowNames]

theorem among_tablesOutline (r : RunResult) : Among bodyNames (tablesOutline r) := by
  have helement {name : String} (opens : name ∈ bodyNames) (closes : "/" ++ name ∈ bodyNames)
      {parts : List Part} (h : Among bodyNames parts) : Among bodyNames (element name parts) :=
    (among_element name parts).mpr ⟨opens, closes, h⟩
  have hheading (s : String) : Among bodyNames (element "h2" [.text s]) :=
    helement (by decide) (by decide) (by simp)
  have htable {table : List Part} (h : Among tableNames table) :
      Among bodyNames (element "table" table) :=
    helement (by decide) (by decide) (h.mono (List.subset_append_right _ _))
  simp only [tablesOutline, among_append, among_text, among_nil, hheading,
    htable (among_overviewTable r), htable (among_measureTable r), htable (among_stepTable r),
    and_self]

theorem among_openingOutline : Among openingNames openingOutline := by decide

theorem among_styleOutline : Among styleNames styleOutline := by
  simp [styleOutline, styleNames]

theorem among_headlineOutline (r : RunResult) : Among headlineNames (headlineOutline r) := by
  simp [headlineOutline, statusOutline, headlineNames]

theorem among_headOutline (r : RunResult) : Among headNames (headOutline r) := by
  have hopening : Among headNames openingOutline := among_openingOutline.mono (by decide)
  have htitle : Among headNames (element "title" [.text "uiprobe レポート - ", .text (title r)]) := by
    simp [headNames]
  have hstyle : Among headNames styleOutline := among_styleOutline.mono (by decide)
  have hheadline : Among headNames (headlineOutline r) := (among_headlineOutline r).mono (by decide)
  rw [headOutline, among_append, among_append, among_append]
  exact ⟨⟨hopening, htitle⟩, hstyle, hheadline⟩

theorem among_endOutline (r : RunResult) : Among endNames (logOutline r ++ endOutline) := by
  unfold logOutline
  split <;> simp [endOutline, endNames]

theorem among_bodyOutline (r : RunResult) : Among (bodyNames ++ endNames) (bodyOutline r) := by
  rw [bodyOutline, among_append]
  exact ⟨(among_tablesOutline r).mono (List.subset_append_left _ _),
    (among_endOutline r).mono (List.subset_append_right _ _)⟩

theorem among_outline (r : RunResult) :
    Among (headNames ++ (bodyNames ++ endNames)) (outline r) := by
  rw [outline, among_append]
  exact ⟨(among_headOutline r).mono (List.subset_append_left _ _),
    (among_bodyOutline r).mono (List.subset_append_right _ _)⟩

theorem scan_htmlText (r : RunResult) : scan (htmlText r).toList = tokens (outline r) := by
  rw [htmlText, String.toList_join, List.flatMap_map, writes_page r,
    scan_parts (among_outline r) (by decide)]

theorem texts_eq (name : String) (r : RunResult) :
    texts name (htmlText r) = (contents name (tokens (outline r))).map plain? := by
  rw [texts, scan_htmlText]

/-- Of the head, only its beginning and the style sheet stand outside of titles. -/
theorem contents_headline (name : String) (r : RunResult)
    (opening : ∀ tag ∈ openingNames, isNamed name (.tag tag.toList) = false)
    (titles : ∀ tag ∈ ["title", "/title"], isNamed name (.tag tag.toList) = false)
    (style : ∀ tag ∈ styleNames, isNamed name (.tag tag.toList) = false) :
    contents name (tokens (outline r)) =
      contents name (tokens (headlineOutline r ++ bodyOutline r)) := by
  have htitle : Among ["title", "/title"]
      (element "title" [.text "uiprobe レポート - ", .text (title r)]) := by simp
  rw [outline, headOutline, List.append_assoc, List.append_assoc, List.append_assoc,
    contents_lacking among_openingOutline opening, contents_lacking htitle titles,
    contents_lacking among_styleOutline style]

theorem texts_title (r : RunResult) :
    texts "title" (htmlText r) = [some ("uiprobe レポート - " ++ title r)] := by
  have htitle : Among [] [.text "uiprobe レポート - ", .text (title r)] := by simp
  have hafter : Among (styleNames ++ headlineNames ++ (bodyNames ++ endNames))
      ((styleOutline ++ headlineOutline r) ++ bodyOutline r) := by
    rw [among_append, among_append]
    exact ⟨⟨among_styleOutline.mono (by decide), (among_headlineOutline r).mono (by decide)⟩,
      (among_bodyOutline r).mono (List.subset_append_right _ _)⟩
  rw [texts_eq, outline, headOutline, List.append_assoc, List.append_assoc,
    contents_lacking among_openingOutline (by decide),
    contents_element "title" (by decide) (by decide) htitle (List.forall_mem_nil _),
    contents_none hafter (by decide), List.map_singleton, plain?_tokens]
  simp [Part.content]

theorem texts_h1 (r : RunResult) :
    texts "h1" (htmlText r) = [some (title r ++ "\n  [" ++ r.status.word ++ "]")] := by
  have hline : Among ["span", "/span"]
      ([.text (title r), .text "\n  "] ++ statusOutline r.status) := by
    simp [statusOutline]
  have hafter : Among (bodyNames ++ endNames) ([.text "\n\n"] ++ bodyOutline r) := by
    simpa using among_bodyOutline r
  have hbracket (s : String) : "\n  " ++ ("[" ++ s) = "\n  [" ++ s := by
    rw [← String.append_assoc]
    rfl
  rw [texts_eq, contents_headline "h1" r (by decide) (by decide) (by decide), headlineOutline,
    List.append_assoc, contents_element "h1" (by decide) (by decide) hline (by decide),
    contents_none hafter (by decide), List.map_singleton, plain?_tokens]
  simp [statusOutline, bare, Part.content, String.append_assoc, hbracket]

/-- The status stands in an element of its own, too. -/
theorem texts_span (r : RunResult) :
    texts "span" (htmlText r) = [some ("[" ++ r.status.word ++ "]")] := by
  have hsplit : headlineOutline r ++ bodyOutline r =
      [bare "h1", .text (title r), .text "\n  "] ++ (.tag "span" (statusClass r.status) ::
        [.text "[", .text r.status.word, .text "]"] ++ bare ("/" ++ "span") ::
          ([bare "/h1", .text "\n\n"] ++ bodyOutline r)) := by
    simp [headlineOutline, element, statusOutline]
  have hbefore : Among ["h1"] [bare "h1", .text (title r), .text "\n  "] := by simp
  have hstatus : isNamed "span" (.tag ("span".toList ++ (statusClass r.status).toList)) = true :=
    (isNamed_tag "span" "span" (separate_statusClass r.status)).trans (by decide)
  have hword : Among [] [.text "[", .text r.status.word, .text "]"] := by simp
  have hafter : Among ("/h1" :: (bodyNames ++ endNames))
      ([bare "/h1", .text "\n\n"] ++ bodyOutline r) := by
    simpa using (among_bodyOutline r).mono (List.subset_cons_self _ _)
  rw [texts_eq, contents_headline "span" r (by decide) (by decide) (by decide), hsplit,
    contents_lacking hbefore (by decide),
    contents_tagged "span" hstatus (by decide) hword (List.forall_mem_nil _),
    contents_none hafter (by decide), List.map_singleton, plain?_tokens]
  simp [Part.content, String.append_assoc]

theorem texts_pre (r : RunResult) :
    texts "pre" (htmlText r) = if r.log.text.isEmpty then [] else [some r.log.text] := by
  have hend : Among ["/body", "/html"] endOutline := by decide
  rw [texts_eq, outline, bodyOutline, contents_lacking (among_headOutline r) (by decide),
    contents_lacking (among_tablesOutline r) (by decide), logOutline, isEmpty_lines]
  cases r.log.text.isEmpty with
  | true =>
      rw [if_pos rfl, if_pos rfl, List.nil_append, contents_none hend (by decide), List.map_nil]
  | false =>
      have hheading : Among ["h2", "/h2"]
          (.text "\n" :: element "h2" [.text "エラーログ"] ++ [.text "\n"]) := by simp
      have hlog : Among [] [.text r.log.text] := by simp
      have hafter : Among ["/body", "/html"] ([.text "\n"] ++ endOutline) := by simpa using hend
      have hsplit : .text "\n" :: element "h2" [.text "エラーログ"] ++ .text "\n" ::
          element "pre" [.text r.log.text] ++ [.text "\n"] ++ endOutline =
          (.text "\n" :: element "h2" [.text "エラーログ"] ++ [.text "\n"]) ++
            (element "pre" [.text r.log.text] ++ ([.text "\n"] ++ endOutline)) := by
        simp
      rw [if_neg (by decide), if_neg (by decide), hsplit, contents_lacking hheading (by decide),
        contents_element "pre" (by decide) (by decide) hlog (List.forall_mem_nil _),
        contents_none hafter (by decide), List.map_singleton, plain?_tokens]
      simp [Part.content]

theorem contents_table (r : RunResult) : contents "table" (tokens (outline r)) =
    [tokens (overviewTable r), tokens (measureTable r), tokens (stepTableOutline r)] := by
  have htable {table : List Part} (h : Among tableNames table) (rest : List Part) :
      contents "table" (tokens (element "table" table ++ rest)) =
        tokens table :: contents "table" (tokens rest) :=
    contents_element "table" (by decide) (by decide) h (by decide) rest
  have hheading (s : String) (rest : List Part) :
      contents "table" (tokens (element "h2" [.text s] ++ rest)) =
        contents "table" (tokens rest) := by
    have hnames : Among ["h2", "/h2"] (element "h2" [.text s]) := by simp
    exact contents_lacking hnames (by decide) rest
  have hend : contents "table" (tokens (logOutline r ++ endOutline)) = [] :=
    contents_none (among_endOutline r) (by decide)
  rw [outline, contents_lacking (among_headOutline r) (by decide), bodyOutline, tablesOutline]
  simp only [List.append_assoc, List.cons_append, List.nil_append, contents_text, hheading,
    htable (among_overviewTable r), htable (among_measureTable r), htable (among_stepTable r), hend]

theorem cells_cellOutline (content : String) (rest : List Part) :
    cells (tokens (cellOutline content ++ rest)) = [some content] :: cells (tokens rest) := by
  have htext : Among [] [.text content] := by simp
  rw [cellOutline, List.cons_append, cells_text, cells_element htext (List.forall_mem_nil _),
    lines_text]

theorem cells_endingOutline (status : Status) (messages : List String) (rest : List Part) :
    cells (tokens (endingOutline status messages ++ rest)) =
      [some status.word] :: (messages ++ [""]).map some :: cells (tokens rest) := by
  have hstatus : isNamed "td" (.tag ("td".toList ++ (statusClass status).toList)) = true :=
    (isNamed_tag "td" "td" (separate_statusClass status)).trans (by decide)
  have hword : Among [] [.text status.word] := by simp
  calc cells (tokens (endingOutline status messages ++ rest))
      = lines (tokens [.text status.word]) :: cells (tokens (.text "\n" :: .text "    " ::
          (element "td" (messages.flatMap fun m => [.text m, bare "br"]) ++ rest))) :=
        (cells_text "\n    " _).trans (cells_tagged hword hstatus (List.forall_mem_nil _) _)
    _ = _ := by
        rw [lines_text, cells_text, cells_text, cells_element (among_messages messages) (by decide),
          lines_messages]

theorem rows_rowOutline {inner : List Part} (h : Among rowNames inner) (rest : List Part) :
    rows (tokens (rowOutline inner ++ rest)) =
      cells (tokens (inner ++ [.text "\n  "])) :: rows (tokens rest) := by
  have hinner : Among rowNames (inner ++ [.text "\n  "]) := by simp [h]
  rw [rowOutline, List.cons_append, List.cons_append, rows_text, List.append_assoc,
    rows_element hinner (by decide), List.singleton_append, rows_text]

theorem rows_headingsOutline (headings : List String) (rest : List Part) :
    rows (tokens (headingsOutline headings ++ rest)) = [] :: rows (tokens rest) := by
  have hheadings : Among ["th", "/th"]
      (headings.flatMap fun heading => element "th" [.text heading]) := by simp
  rw [headingsOutline, List.cons_append, List.cons_append, rows_text, List.append_assoc,
    rows_element hheadings (by decide), List.singleton_append, rows_text, cells,
    contents_none hheadings (by decide), List.map_nil]

/-- The cells of the overview, one in each row. -/
def overviewCells (r : RunResult) : List String :=
  let counts := summarize r.outcomes
  [timeText r.startedAt, timeText r.finishedAt, millisText r.durationMillis ++ " ms",
    toString counts.total ++ "（成功 " ++ toString counts.passed ++ " / 失敗 " ++
      toString counts.failed ++ "）"] ++ (r.artifacts.map Path.text).toList

/-- The cells of a slot. -/
def slotCells (r : RunResult) (slot : Int) : List (List String) :=
  [[slotName slot], [((r.measureTime slot).map (Number.fixedText 3)).getD "-"],
    [timeText (r.sampleTime slot)]]

/-- The cells of a step. -/
def stepCells (o : Outcome) : List (List String) :=
  [[toString o.index], [o.name], [o.action], [o.selector], [millisText o.durationMillis],
    [o.status.word], o.messages ++ [""]]

theorem rows_factOutline (heading : String) (blanks texts : List String) (rest : List Part) :
    rows (tokens (factOutline heading blanks texts ++ rest)) =
      [[some (String.join texts)]] :: rows (tokens rest) := by
  have hbefore : Among ["th", "/th"] (element "th" [.text heading] ++ blanks.map .text) := by simp
  have hrow : Among rowNames (element "th" [.text heading] ++ blanks.map .text ++
      element "td" (texts.map .text)) := by simp [rowNames]
  have hcell := cells_element (among_texts texts) (List.forall_mem_nil _) []
  rw [List.append_nil, lines_texts] at hcell
  rw [factOutline, List.cons_append, rows_text, rows_element hrow (by decide), cells,
    contents_lacking hbefore (by decide)]
  exact congrArg (· :: rows (tokens rest)) hcell

theorem rows_overviewTable (r : RunResult) :
    rows (tokens (overviewTable r)) = (overviewCells r).map fun cell => [[some cell]] := by
  cases h : r.artifacts <;>
    simp [overviewTable, overviewOutline, overviewCells, h, rows_text, rows_factOutline, rows_nil,
      String.append_assoc]

theorem rows_measureOutline (r : RunResult) (slot : Int) (rest : List Part) :
    rows (tokens (measureOutline r slot ++ rest)) =
      (slotCells r slot).map (·.map some) :: rows (tokens rest) := by
  rw [measureOutline, rows_rowOutline (by simp [among_cellOutline])]
  simp only [List.append_assoc, cells_cellOutline, cells_text, tokens_nil, cells_nil]
  rfl

theorem rows_stepOutline (o : Outcome) (rest : List Part) :
    rows (tokens (stepOutline o ++ rest)) =
      (stepCells o).map (·.map some) :: rows (tokens rest) := by
  rw [stepOutline, rows_rowOutline (by simp [among_cellOutline, among_endingOutline])]
  simp only [List.append_assoc, cells_cellOutline, cells_endingOutline, cells_text, tokens_nil,
    cells_nil]
  rfl

theorem rows_measureTable (r : RunResult) :
    rows (tokens (measureTable r)) =
      ([] :: measureSlots.map (slotCells r)).map (·.map (·.map some)) := by
  rw [measureTable, List.append_assoc, rows_headingsOutline,
    rows_flatMap (rows_measureOutline r) measureSlots, rows_text, tokens_nil, rows_nil,
    List.append_nil, List.map_cons, List.map_map]
  rfl

theorem rows_stepTable (r : RunResult) :
    rows (tokens (stepTableOutline r)) =
      ([] :: r.outcomes.map stepCells).map (·.map (·.map some)) := by
  rw [stepTableOutline, List.append_assoc, rows_headingsOutline,
    rows_flatMap rows_stepOutline r.outcomes, rows_text, tokens_nil, rows_nil, List.append_nil,
    List.map_cons, List.map_map]
  rfl

theorem tables_htmlText (r : RunResult) :
    tables (htmlText r) =
      [(overviewCells r).map fun cell => [[cell]], [] :: measureSlots.map (slotCells r),
        [] :: r.outcomes.map stepCells].map (·.map (·.map (·.map some))) := by
  rw [tables, scan_htmlText, contents_table, List.map_cons, List.map_cons, List.map_singleton,
    rows_overviewTable, rows_measureTable, rows_stepTable]
  simp

end BrowserSteps.Report.Html
