import BrowserSteps.Proofs.Report.Markup

/-!
The outline of the HTML report: its tags, and its texts as they are without escapes. The page is
what its outline writes, and a reader finds the tags of the outline in it and no others.
-/

namespace BrowserSteps.Report.Html

open Markup

/-- A part of a page: a tag by its name and the rest of it, or a text. -/
inductive Part where
  | tag (name : String) (attributes : String)
  | text (content : String)
  deriving DecidableEq, Repr

def Part.chars : Part → List Char
  | .tag name attributes => '<' :: (name.toList ++ attributes.toList) ++ ['>']
  | .text content => content.toList.flatMap escapeChar

/-- A tag without attributes. -/
def bare (name : String) : Part := .tag name ""

/-- An element without attributes. -/
def element (name : String) (content : List Part) : List Part :=
  bare name :: content ++ [bare ("/" ++ name)]

/-- The attribute that says which status is shown. -/
def statusClass (status : Status) : String := " class=\"status-" ++ escape status.word ++ "\""

theorem toList_statusClass (status : Status) : (statusClass status).toList =
    " class=\"status-".toList ++ status.word.toList.flatMap escapeChar ++ ['"'] := by
  unfold statusClass
  simp [escape]

/-- What stands before the title. -/
def openingOutline : List Part :=
  [.tag "!DOCTYPE" " html", .text "\n", .tag "html" " lang=\"ja\"", .text "\n", bare "head",
    .text "\n", .tag "meta" " charset=\"utf-8\"", .text "\n"]

def styleOutline : List Part :=
  .text "\n" :: element "style" (styleSheet.map .text ++ [.text "\n"]) ++
    [.text "\n", bare "/head", .text "\n", bare "body", .text "\n"]

def statusOutline (status : Status) : List Part :=
  .tag "span" (statusClass status) :: [.text "[", .text status.word, .text "]"] ++ [bare "/span"]

def headlineOutline (r : RunResult) : List Part :=
  element "h1" ([.text (title r), .text "\n  "] ++ statusOutline r.status) ++ [.text "\n\n"]

def headOutline (r : RunResult) : List Part :=
  openingOutline ++ element "title" [.text "uiprobe レポート - ", .text (title r)] ++
    (styleOutline ++ headlineOutline r)

/-- A row of the overview: a heading and a cell with these texts, and perhaps blanks between them.
-/
def factOutline (heading : String) (blanks texts : List String) : List Part :=
  .text "  " :: element "tr" (element "th" [.text heading] ++ blanks.map .text ++
    element "td" (texts.map .text))

def overviewOutline (r : RunResult) : List Part :=
  let counts := summarize r.outcomes
  factOutline "開始" [] [timeText r.startedAt] ++ .text "\n" ::
  factOutline "終了" [] [timeText r.finishedAt] ++ .text "\n" ::
  factOutline "実行時間" [] [millisText r.durationMillis, " ms"] ++ .text "\n" ::
  factOutline "ステップ" ["\n      "] [toString counts.total, "（成功 ", toString counts.passed,
    " / 失敗 ", toString counts.failed, "）"] ++ [.text "\n  "] ++
  match r.artifacts with
  | some path => .text "\n" :: factOutline "キャプチャ" [] [path.text] ++ [.text "\n  "]
  | none => []

/-- A row of headings. -/
def headingsOutline (headings : List String) : List Part :=
  .text "\n  " :: element "tr" (headings.flatMap fun heading => element "th" [.text heading]) ++
    [.text "\n  "]

/-- A cell on a line of its own. -/
def cellOutline (content : String) : List Part := .text "\n    " :: element "td" [.text content]

/-- A row with cells on lines of their own. -/
def rowOutline (cells : List Part) : List Part :=
  .text "\n  " :: element "tr" (cells ++ [.text "\n  "]) ++ [.text "\n  "]

def measureOutline (r : RunResult) (slot : Int) : List Part :=
  rowOutline (cellOutline (slotName slot) ++
    cellOutline (((r.measureTime slot).map (Number.fixedText 3)).getD "-") ++
    cellOutline (timeText (r.sampleTime slot)))

/-- The cells of the last two columns. -/
def endingOutline (status : Status) (messages : List String) : List Part :=
  [.text "\n    ", .tag "td" (statusClass status), .text status.word, bare "/td", .text "\n",
    .text "    "] ++ element "td" (messages.flatMap fun m => [.text m, bare "br"])

def stepOutline (o : Outcome) : List Part :=
  rowOutline (cellOutline (toString o.index) ++ cellOutline o.name ++ cellOutline o.action ++
    cellOutline o.selector ++ cellOutline (millisText o.durationMillis) ++
    endingOutline o.status o.messages)

def logOutline (r : RunResult) : List Part :=
  if r.log.lines.isEmpty then []
  else .text "\n" :: element "h2" [.text "エラーログ"] ++ .text "\n" ::
    element "pre" [.text r.log.text] ++ [.text "\n"]

def overviewTable (r : RunResult) : List Part := .text "\n" :: overviewOutline r ++ [.text "\n"]

def measureTable (r : RunResult) : List Part :=
  headingsOutline ["スロット", "経過秒数", "計測時刻"] ++ measureSlots.flatMap (measureOutline r) ++
    [.text "\n"]

def stepTableOutline (r : RunResult) : List Part :=
  headingsOutline ["#", "名前", "アクション", "セレクタ", "時間 (ms)", "結果", "メッセージ"] ++
    r.outcomes.flatMap stepOutline ++ [.text "\n"]

/-- The tables with their headings. -/
def tablesOutline (r : RunResult) : List Part :=
  element "table" (overviewTable r) ++ .text "\n\n" ::
    element "h2" [.text "計測"] ++ .text "\n" :: element "table" (measureTable r) ++ .text "\n\n" ::
    element "h2" [.text "ステップ"] ++ .text "\n" :: element "table" (stepTableOutline r) ++
    [.text "\n\n"]

def endOutline : List Part := [.text "\n", bare "/body", .text "\n", bare "/html"]

def bodyOutline (r : RunResult) : List Part := tablesOutline r ++ (logOutline r ++ endOutline)

/-- The whole page. -/
def outline (r : RunResult) : List Part := headOutline r ++ bodyOutline r

/-- Pieces of a page that are written like parts of an outline. -/
def Writes (pieces : List Piece) (parts : List Part) : Prop :=
  pieces.flatMap (·.render.toList) = parts.flatMap Part.chars

theorem render_markup (source : String) : (Piece.markup source).render = source := rfl

theorem render_text (content : String) : (Piece.text content).render = escape content := rfl

theorem writes_nil : Writes [] [] := rfl

section

variable {pieces more : List Piece} {parts others : List Part}

theorem Writes.append (h : Writes pieces parts) (h' : Writes more others) :
    Writes (pieces ++ more) (parts ++ others) := by
  rw [Writes, List.flatMap_append, List.flatMap_append, h, h']

theorem Writes.text (content : String) (h : Writes pieces parts) :
    Writes (.text content :: pieces) (.text content :: parts) := by
  have hcontent : (Piece.text content).render.toList = (Part.text content).chars :=
    String.toList_ofList
  rw [Writes, List.flatMap_cons, List.flatMap_cons, hcontent, h]

/-- Markup that is written like parts of its own. -/
theorem Writes.markup {source : String} (own : List Part)
    (same : source.toList = own.flatMap Part.chars) (h : Writes pieces parts) :
    Writes (.markup source :: pieces) (own ++ parts) := by
  rw [Writes, List.flatMap_cons, List.flatMap_append, Piece.render, same, h]

/-- A status within an open tag is one of its attributes. -/
theorem Writes.status {before after : String} (name : String) (own others : List Part)
    (begins : before.toList =
      own.flatMap Part.chars ++ '<' :: name.toList ++ " class=\"status-".toList)
    (ends : after.toList = '"' :: '>' :: others.flatMap Part.chars) (status : Status)
    (h : Writes pieces parts) :
    Writes (.markup before :: .text status.word :: .markup after :: pieces)
      (own ++ .tag name (statusClass status) :: others ++ parts) := by
  have hword : (escape status.word).toList = status.word.toList.flatMap escapeChar :=
    String.toList_ofList
  rw [Writes] at h
  simp only [Writes, List.flatMap_cons, List.flatMap_append, render_markup, render_text, Part.chars,
    begins, ends, toList_statusClass, hword, h, List.append_assoc, List.cons_append,
    List.nil_append]

end

theorem writes_flatMap {α : Type} {pieces : α → List Piece} {parts : α → List Part}
    (h : ∀ item, Writes (pieces item) (parts item)) (items : List α) :
    Writes (items.flatMap pieces) (items.flatMap parts) := by
  induction items with
  | nil => rfl
  | cons item rest ih => exact (h item).append ih

theorem writes_messageCell (messages : List String) :
    Writes (messageCell messages)
      ([.text "    ", bare "td"] ++ (messages.flatMap fun m => [.text m, bare "br"]) ++
        [bare "/td", .text "\n  ", bare "/tr", .text "\n  "]) := by
  have hmessage (m : String) : Writes [.text m, .markup "<br>"] [.text m, bare "br"] :=
    .text m (.markup [bare "br"] (by decide +kernel) writes_nil)
  refine (Writes.markup [.text "    ", bare "td"] (by decide +kernel)
    (writes_flatMap hmessage messages)).append ?_
  exact .markup [bare "/td", .text "\n  ", bare "/tr", .text "\n  "] (by decide +kernel) writes_nil

section

variable {pieces : List Piece} {parts : List Part}

/-- Where a row with cells on lines of their own begins. -/
theorem Writes.rowOpens (h : Writes pieces parts) :
    Writes (.markup "\n  <tr>\n    <td>" :: pieces)
      ([.text "\n  ", bare "tr", .text "\n    ", bare "td"] ++ parts) :=
  h.markup _ (by decide +kernel)

theorem Writes.nextCell (h : Writes pieces parts) :
    Writes (.markup "</td>\n    <td>" :: pieces)
      ([bare "/td", .text "\n    ", bare "td"] ++ parts) :=
  h.markup _ (by decide +kernel)

end

theorem writes_stepRow (o : Outcome) : Writes (stepRow o) (stepOutline o) := by
  have hstatus : Writes [.markup "</td>\n    <td class=\"status-", .text o.status.word,
      .markup "\">", .text o.status.word, .markup "</td>\n"]
      ([bare "/td", .text "\n    "] ++ .tag "td" (statusClass o.status) :: [] ++
        [.text o.status.word, bare "/td", .text "\n"]) :=
    .status "td" _ [] (by decide +kernel) (by decide +kernel) o.status
      (.text o.status.word (.markup [bare "/td", .text "\n"] (by decide +kernel) writes_nil))
  have hcells := Writes.rowOpens (.text (toString o.index) (.nextCell (.text o.name (.nextCell
    (.text o.action (.nextCell (.text o.selector (.nextCell (.text (millisText o.durationMillis)
      hstatus)))))))))
  have hrow := hcells.append (writes_messageCell o.messages)
  simpa [stepRow, stepOutline, rowOutline, cellOutline, endingOutline, element] using hrow

theorem writes_measureRow (r : RunResult) (slot : Int) :
    Writes (measureRow r slot) (measureOutline r slot) := by
  have hend : Writes [.markup "</td>\n  </tr>\n  "]
      ([bare "/td", .text "\n  ", bare "/tr", .text "\n  "] ++ []) :=
    .markup _ (by decide +kernel) writes_nil
  have hrow := Writes.rowOpens (.text (slotName slot) (.nextCell (.text
    (((r.measureTime slot).map (Number.fixedText 3)).getD "-") (.nextCell
      (.text (timeText (r.sampleTime slot)) hend)))))
  simpa [measureRow, measureOutline, rowOutline, cellOutline, element] using hrow

theorem writes_tableEnd :
    Writes [.markup "\n</table>\n\n"] ([.text "\n", bare "/table", .text "\n\n"] ++ []) :=
  .markup _ (by decide +kernel) writes_nil

theorem writes_measurements (r : RunResult) :
    Writes (measurements r) (element "h2" [.text "計測"] ++ .text "\n" ::
      element "table" (measureTable r) ++ [.text "\n\n"]) := by
  have htable : Writes (measurements r)
      ((element "h2" [.text "計測"] ++ .text "\n" :: bare "table" ::
        headingsOutline ["スロット", "経過秒数", "計測時刻"]) ++
        measureSlots.flatMap (measureOutline r) ++
        ([.text "\n", bare "/table", .text "\n\n"] ++ [])) :=
    .append (.markup _ (by decide +kernel) (writes_flatMap (writes_measureRow r) measureSlots))
      writes_tableEnd
  simpa [element, measureTable] using htable

theorem writes_stepTable (r : RunResult) :
    Writes (stepTable r) (element "h2" [.text "ステップ"] ++ .text "\n" ::
      element "table" (stepTableOutline r) ++ [.text "\n\n"]) := by
  have htable : Writes (stepTable r)
      ((element "h2" [.text "ステップ"] ++ .text "\n" :: bare "table" ::
        headingsOutline ["#", "名前", "アクション", "セレクタ", "時間 (ms)", "結果", "メッセージ"]) ++
        r.outcomes.flatMap stepOutline ++ ([.text "\n", bare "/table", .text "\n\n"] ++ [])) :=
    .append (.markup _ (by decide +kernel) (writes_flatMap writes_stepRow r.outcomes))
      writes_tableEnd
  simpa [element, stepTableOutline] using htable

theorem writes_logSection (r : RunResult) : Writes (logSection r) (logOutline r) := by
  unfold logSection logOutline
  split
  · exact writes_nil
  · exact .markup (.text "\n" :: element "h2" [.text "エラーログ"] ++ [.text "\n", bare "pre"])
      (by decide +kernel) (.text r.log.text (.markup [bare "/pre", .text "\n"] (by decide +kernel)
        writes_nil))

theorem writes_plain {sources : List String}
    (plain : ∀ source ∈ sources, source.toList = source.toList.flatMap escapeChar) :
    Writes (sources.map .markup) (sources.map .text) := by
  induction sources with
  | nil => exact writes_nil
  | cons source rest ih =>
      obtain ⟨hsource, hrest⟩ := List.forall_mem_cons.mp plain
      exact .markup [.text source] (by simpa [Part.chars] using hsource) (ih hrest)

/-- The rules of the style sheet hold nothing that is escaped. -/
theorem writes_styleSheet : Writes (styleSheet.map .markup) (styleSheet.map .text) :=
  writes_plain (by decide +kernel)

theorem writes_heading (r : RunResult) :
    Writes (heading r) (headOutline r ++ [bare "table", .text "\n"]) := by
  have hbegin : Writes [.markup pageStart, .text (title r), .markup "</title>\n<style>"]
      (([.tag "!DOCTYPE" " html", .text "\n", .tag "html" " lang=\"ja\"", .text "\n", bare "head",
        .text "\n", .tag "meta" " charset=\"utf-8\"", .text "\n", bare "title",
        .text "uiprobe レポート - "] : List Part) ++
        .text (title r) :: ([bare "/title", .text "\n", bare "style"] ++ [])) :=
    .markup _ (by decide +kernel) (.text _ (.markup _ (by decide +kernel) writes_nil))
  have hstatus : Writes [.markup "\n  <span class=\"status-", .text r.status.word, .markup "\">[",
      .text r.status.word, .markup "]</span></h1>\n\n<table>\n"]
      ([.text "\n  "] ++ .tag "span" (statusClass r.status) :: [.text "["] ++
        .text r.status.word :: ([.text "]", bare "/span", bare "/h1", .text "\n\n", bare "table",
          .text "\n"] ++ [])) :=
    .status "span" _ _ (by decide +kernel) (by decide +kernel) r.status
      (.text _ (.markup _ (by decide +kernel) writes_nil))
  have hend : Writes (.markup "\n</style>\n</head>\n<body>\n<h1>" :: .text (title r) :: _)
      ([.text "\n", bare "/style", .text "\n", bare "/head", .text "\n", bare "body", .text "\n",
        bare "h1"] ++ .text (title r) :: _) :=
    .markup _ (by decide +kernel) (.text _ hstatus)
  simpa [heading, headOutline, openingOutline, styleOutline, headlineOutline,
    statusOutline, element] using (hbegin.append writes_styleSheet).append hend

theorem writes_artifactsRow (artifacts : Option Path) :
    Writes (artifactsRow artifacts) (match artifacts with
      | some path => .text "\n" :: factOutline "キャプチャ" [] [path.text] ++ [.text "\n  "]
      | none => []) := by
  cases artifacts with
  | none => exact writes_nil
  | some path =>
      exact .markup
        ([.text "\n", .text "  ", bare "tr"] ++ element "th" [.text "キャプチャ"] ++ [bare "td"])
        (by decide +kernel) (.text path.text (.markup [bare "/td", bare "/tr", .text "\n  "]
          (by decide +kernel) writes_nil))

theorem writes_overview (r : RunResult) :
    Writes (overview r) (overviewOutline r ++ [.text "\n", bare "/table", .text "\n\n"]) := by
  have hsteps : Writes [.markup " ms</td></tr>\n  <tr><th>ステップ</th>\n      <td>",
      .text (toString (summarize r.outcomes).total), .markup "（成功 ",
      .text (toString (summarize r.outcomes).passed), .markup " / 失敗 ",
      .text (toString (summarize r.outcomes).failed), .markup "）</td></tr>\n  "]
      (([.text " ms", bare "/td", bare "/tr", .text "\n", .text "  ", bare "tr"] ++
        element "th" [.text "ステップ"] ++ [.text "\n      ", bare "td"]) ++
        .text (toString (summarize r.outcomes).total) :: ([.text "（成功 "] ++
        .text (toString (summarize r.outcomes).passed) :: ([.text " / 失敗 "] ++
        .text (toString (summarize r.outcomes).failed) :: ([.text "）", bare "/td", bare "/tr",
          .text "\n  "] ++ [])))) :=
    .markup _ (by decide +kernel) (.text _ (.markup _ (by decide +kernel) (.text _
      (.markup _ (by decide +kernel) (.text _ (.markup _ (by decide +kernel) writes_nil))))))
  have htimes : Writes (.markup "  <tr><th>開始</th><td>" :: .text (timeText r.startedAt) ::
      .markup "</td></tr>\n  <tr><th>終了</th><td>" :: .text (timeText r.finishedAt) ::
      .markup "</td></tr>\n  <tr><th>実行時間</th><td>" :: .text (millisText r.durationMillis) :: _)
      ((.text "  " :: bare "tr" :: element "th" [.text "開始"] ++ [bare "td"]) ++
        .text (timeText r.startedAt) ::
        (([bare "/td", bare "/tr", .text "\n", .text "  ", bare "tr"] ++
          element "th" [.text "終了"] ++ [bare "td"]) ++ .text (timeText r.finishedAt) ::
        (([bare "/td", bare "/tr", .text "\n", .text "  ", bare "tr"] ++
          element "th" [.text "実行時間"] ++ [bare "td"]) ++
        .text (millisText r.durationMillis) :: _))) :=
    .markup _ (by decide +kernel) (.text _ (.markup _ (by decide +kernel) (.text _
      (.markup _ (by decide +kernel) (.text _ hsteps)))))
  have hall := (htimes.append (writes_artifactsRow r.artifacts)).append writes_tableEnd
  simpa [overview, overviewOutline, factOutline, element] using hall

/-- The page is what its outline writes. -/
theorem writes_page (r : RunResult) : Writes (page r) (outline r) := by
  have hend : Writes [.markup "\n</body>\n</html>"] (endOutline ++ []) :=
    .markup _ (by decide +kernel) writes_nil
  have htables := (writes_measurements r).append (writes_stepTable r)
  have hall := (((writes_heading r).append (writes_overview r)).append htables).append
    ((writes_logSection r).append hend)
  simpa [page, outline, bodyOutline, tablesOutline, element, overviewTable] using hall

end BrowserSteps.Report.Html
