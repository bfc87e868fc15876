import BrowserSteps.Report.Content

/-!
The HTML report. A page is a sequence of fixed markup and of texts from the run; only the
texts are escaped, and only markup holds tags.
-/

namespace BrowserSteps.Report.Html

/-- A piece of a page. -/
inductive Piece where
  | markup (source : String)
  | text (content : String)
  deriving DecidableEq, Repr

/-- How a character of a text stands on a page. -/
def escapeChar (c : Char) : List Char :=
  if c = '&' then "&amp;".toList
  else if c = '<' then "&lt;".toList
  else if c = '>' then "&gt;".toList
  else if c = '"' then "&#34;".toList
  else if c = '\'' then "&#39;".toList
  else [c]

def escape (s : String) : String := String.ofList (s.toList.flatMap escapeChar)

def Piece.render : Piece → String
  | .markup source => source
  | .text content => escape content

/-- The name of a run without a tag. -/
def defaultName : String := "uiprobe"

def title (r : RunResult) : String := if r.tag.isEmpty then defaultName else r.tag

def timeText (time : Option DateTime) : String := (time.map DateTime.iso).getD "-"

def millisText (millis : Float) : String := Decimal.fixedText 0 millis

/-- Everything before the title. -/
def pageStart : String := "<!DOCTYPE html>
<html lang=\"ja\">
<head>
<meta charset=\"utf-8\">
<title>uiprobe レポート - "

/-- The rules of the style sheet. -/
def styleSheet : List String :=
  ["
  body \x7b font-family: sans-serif; margin: 2em; color: #222; \x7d", "
  h1 \x7b font-size: 1.4em; \x7d", "
  .status-passed \x7b color: #1a7f37; \x7d", "
  .status-failed \x7b color: #cf222e; \x7d", "
  table \x7b border-collapse: collapse; margin-bottom: 1.5em; \x7d", "
  th, td \x7b border: 1px solid #ccc; padding: 4px 8px; text-align: left; vertical-align: top; \x7d", "
  th \x7b background: #f3f3f3; \x7d", "
  pre \x7b background: #f6f8fa; padding: 8px; white-space: pre-wrap; \x7d"]

/-- Title and head line. -/
def heading (r : RunResult) : List Piece :=
  [.markup pageStart, .text (title r), .markup "</title>\n<style>"] ++ styleSheet.map .markup ++
    [.markup "\n</style>\n</head>\n<body>\n<h1>", .text (title r),
      .markup "\n  <span class=\"status-", .text r.status.word, .markup "\">[",
      .text r.status.word, .markup "]</span></h1>\n\n<table>\n"]

/-- The row that names the place of the screenshots. -/
def artifactsRow : Option Path → List Piece
  | some path =>
    [.markup "\n  <tr><th>キャプチャ</th><td>", .text path.text, .markup "</td></tr>\n  "]
  | none => []

/-- Times and counts of the whole run. -/
def overview (r : RunResult) : List Piece :=
  let counts := summarize r.outcomes
  [.markup "  <tr><th>開始</th><td>", .text (timeText r.startedAt),
    .markup "</td></tr>\n  <tr><th>終了</th><td>", .text (timeText r.finishedAt),
    .markup "</td></tr>\n  <tr><th>実行時間</th><td>", .text (millisText r.durationMillis),
    .markup " ms</td></tr>\n  <tr><th>ステップ</th>\n      <td>", .text (toString counts.total),
    .markup "（成功 ", .text (toString counts.passed), .markup " / 失敗 ",
    .text (toString counts.failed), .markup "）</td></tr>\n  "] ++
  artifactsRow r.artifacts ++ [.markup "\n</table>\n\n"]

/-- The row of a slot. -/
def measureRow (r : RunResult) (slot : Int) : List Piece :=
  [.markup "\n  <tr>\n    <td>", .text (slotName slot), .markup "</td>\n    <td>",
    .text (((r.measureTime slot).map (Number.fixedText 3)).getD "-"),
    .markup "</td>\n    <td>", .text (timeText (r.sampleTime slot)),
    .markup "</td>\n  </tr>\n  "]

def measurements (r : RunResult) : List Piece :=
  .markup "<h2>計測</h2>\n<table>\n  <tr><th>スロット</th><th>経過秒数</th><th>計測時刻</th></tr>\n  " ::
    measureSlots.flatMap (measureRow r) ++ [.markup "\n</table>\n\n"]

/-- The messages of a step, each on a line of its own. -/
def messageCell (messages : List String) : List Piece :=
  .markup "    <td>" :: messages.flatMap (fun m => [.text m, .markup "<br>"]) ++
    [.markup "</td>\n  </tr>\n  "]

/-- The row of a step. -/
def stepRow (o : Outcome) : List Piece :=
  [.markup "\n  <tr>\n    <td>", .text (toString o.index), .markup "</td>\n    <td>",
    .text o.name, .markup "</td>\n    <td>", .text o.action, .markup "</td>\n    <td>",
    .text o.selector, .markup "</td>\n    <td>", .text (millisText o.durationMillis),
    .markup "</td>\n    <td class=\"status-", .text o.status.word, .markup "\">",
    .text o.status.word, .markup "</td>\n"] ++ messageCell o.messages

def stepTable (r : RunResult) : List Piece :=
  .markup ("<h2>ステップ</h2>\n<table>\n  <tr><th>#</th><th>名前</th><th>アクション</th>" ++
      "<th>セレクタ</th><th>時間 (ms)</th><th>結果</th><th>メッセージ</th></tr>\n  ") ::
    r.outcomes.flatMap stepRow ++ [.markup "\n</table>\n\n"]

/-- The log, if there is anything in it. -/
def logSection (r : RunResult) : List Piece :=
  if r.log.lines.isEmpty then []
  else [.markup "\n<h2>エラーログ</h2>\n<pre>", .text r.log.text, .markup "</pre>\n"]

/-- All pieces of the page. -/
def page (r : RunResult) : List Piece :=
  heading r ++ overview r ++ measurements r ++ stepTable r ++ logSection r ++
    [.markup "\n</body>\n</html>"]

end Html

/-- The HTML report. -/
def htmlText (r : RunResult) : String := String.join ((Html.page r).map Html.Piece.render)

end BrowserSteps.Report
