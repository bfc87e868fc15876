import BrowserSteps.Json.Printer
import BrowserSteps.Result.Basic

/-!
The content that all reports of a run share, and its JSON form.
-/

namespace BrowserSteps

private def timeJson (time : Option DateTime) : Json :=
  match time with
  | some t => .str t.iso
  | none => .null

def Outcome.toJson (o : Outcome) : Json :=
  .obj [("step_index", .int o.index), ("step_name", .str o.name), ("action", .str o.action),
    ("selector", .str o.selector), ("started_at", timeJson o.startedAt),
    ("finished_at", timeJson o.finishedAt), ("duration_ms", .float o.durationMillis),
    ("status", .str o.status.word), ("messages", .arr (o.messages.map .str))]

/-- The name of a slot in reports. -/
def slotName (slot : Int) : String := "measure_time_" ++ toString slot

namespace RunResult

private def measureJson (r : RunResult) (slot : Int) : Json :=
  .obj [("duration_seconds", ((r.measureTime slot).map Number.toJson).getD .null),
    ("sample_time", timeJson (r.sampleTime slot))]

/-- The members of a result as reports show it. -/
def toMembers (r : RunResult) : List (String × Json) :=
  [("tag", .str r.tag), ("status", .str r.status.word), ("started_at", timeJson r.startedAt),
    ("finished_at", timeJson r.finishedAt), ("duration_ms", .float r.durationMillis),
    ("measures", .obj (measureSlots.map fun slot => (slotName slot, r.measureJson slot))),
    ("error_message", .str r.log.text), ("steps", .arr (r.outcomes.map Outcome.toJson)),
    ("artifacts_dir", (r.artifacts.map fun path => Json.str path.text).getD .null)]

def toJson (r : RunResult) : Json := .obj r.toMembers

end RunResult

def Summary.toJson (s : Summary) : Json :=
  .obj [("total", .int s.total), ("passed", .int s.passed), ("failed", .int s.failed)]

namespace Report

/-- The members of a result, the lines of its log and the counts of its outcomes. -/
def content (r : RunResult) : Json :=
  .obj (r.toMembers ++
    [("errors", .arr (r.log.lines.map .str)), ("summary", (summarize r.outcomes).toJson)])

/-- The JSON report. -/
def jsonText (r : RunResult) : String := Json.deepText (content r)

end Report

end BrowserSteps
