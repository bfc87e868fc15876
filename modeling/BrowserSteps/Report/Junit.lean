import BrowserSteps.Report.Html
import BrowserSteps.Report.Xml

/-!
The report for test runners: a suite with the measurements as properties, a case for every
outcome and the log as its output.
-/

namespace BrowserSteps.Report.Junit

open Xml

/-- A whole number padded with zeros to three characters; a minus sign is one of them. -/
def indexText (n : Int) : String :=
  if n < 0 then "-" ++ DateTime.padded 2 n.natAbs else DateTime.padded 3 n.natAbs

/-- Milliseconds as seconds with three places. -/
def secondsText (millis : Float) : String := Decimal.fixedText 3 (millis / 1000)

def property (r : RunResult) (slot : Int) : Element :=
  .leaf "property" [("name", slotName slot),
    ("value", ((r.measureTime slot).map (Number.fixedText 3)).getD "")] ""

/-- What a failed step says: its lines, and a word if there are none. -/
def failure (messages : List String) : Element :=
  let all := "\n".intercalate messages
  .leaf "failure" [("message", messages.head?.getD "failed")]
    (if all.isEmpty then "failed" else all)

def testCase (suite : String) (o : Outcome) : Element :=
  .branch "testcase" [("name", indexText o.index ++ " " ++ o.name), ("classname", suite),
    ("time", secondsText o.durationMillis)]
    (if o.status = .failed then [failure o.messages] else [])

/-- The log, if there is anything in it. -/
def output (r : RunResult) : List Element :=
  if r.log.text.isEmpty then [] else [.leaf "system-out" [] r.log.text]

def suites (r : RunResult) : Element :=
  let name := Html.title r
  let counts := summarize r.outcomes
  .branch "testsuites" []
    [.branch "testsuite" [("name", name), ("tests", toString counts.total),
      ("failures", toString counts.failed), ("time", secondsText r.durationMillis)]
      (.branch "properties" [] (measureSlots.map (property r)) ::
        r.outcomes.map (testCase name) ++ output r)]

end Junit

/-- The report for test runners. -/
def junitText (r : RunResult) : String := Xml.document (Junit.suites r)

end BrowserSteps.Report
