import BrowserSteps.Main
import BrowserSteps.Proofs.Browser.Summary
import BrowserSteps.Proofs.CommandLine.Verdict
import BrowserSteps.Proofs.Config.Faults
import BrowserSteps.Proofs.Config.Precedence
import BrowserSteps.Proofs.Decimal.Fraction
import BrowserSteps.Proofs.Decimal.Order
import BrowserSteps.Proofs.Decimal.Overflow
import BrowserSteps.Proofs.Decimal.Packing
import BrowserSteps.Proofs.Decimal.Quotient
import BrowserSteps.Proofs.Decimal.Rounding
import BrowserSteps.Proofs.Files.Tree
import BrowserSteps.Proofs.Json.LongNumber
import BrowserSteps.Proofs.Json.Reach
import BrowserSteps.Proofs.Json.Rest
import BrowserSteps.Proofs.Json.Spelling
import BrowserSteps.Proofs.Json.Token
import BrowserSteps.Proofs.Json.Within
import BrowserSteps.Proofs.Keyed
import BrowserSteps.Proofs.Lint.Reports
import BrowserSteps.Proofs.Pattern.Literal
import BrowserSteps.Proofs.Pattern.Word
import BrowserSteps.Proofs.Report.Agreement
import BrowserSteps.Proofs.Report.Injection
import BrowserSteps.Proofs.Report.JunitReading
import BrowserSteps.Proofs.Report.Markup
import BrowserSteps.Proofs.Report.Outline
import BrowserSteps.Proofs.Report.PageContent
import BrowserSteps.Proofs.Report.PageReading
import BrowserSteps.Proofs.Report.Writing
import BrowserSteps.Proofs.Report.XmlCharacters
import BrowserSteps.Proofs.Report.XmlLines
import BrowserSteps.Proofs.Report.XmlReading
import BrowserSteps.Proofs.Result.Log
import BrowserSteps.Proofs.Result.Remarks
import BrowserSteps.Proofs.Routine.Clock
import BrowserSteps.Proofs.Routine.Completion
import BrowserSteps.Proofs.Routine.Custody
import BrowserSteps.Proofs.Routine.Interference
import BrowserSteps.Proofs.Routine.Isolation
import BrowserSteps.Proofs.Routine.Shadow
import BrowserSteps.Proofs.Routine.Sharing
import BrowserSteps.Proofs.Routine.Turns
import BrowserSteps.Proofs.Run.Attribution
import BrowserSteps.Proofs.Run.Cancellation
import BrowserSteps.Proofs.Run.Completion
import BrowserSteps.Proofs.Run.Congruence
import BrowserSteps.Proofs.Run.ControlFlow
import BrowserSteps.Proofs.Run.CutStep
import BrowserSteps.Proofs.Run.Explanation
import BrowserSteps.Proofs.Run.History
import BrowserSteps.Proofs.Run.Interruption
import BrowserSteps.Proofs.Run.MarkerOrder
import BrowserSteps.Proofs.Run.Measurement
import BrowserSteps.Proofs.Run.Phases
import BrowserSteps.Proofs.Run.Recording
import BrowserSteps.Proofs.Run.Registration
import BrowserSteps.Proofs.Run.Release
import BrowserSteps.Proofs.Run.Shadow
import BrowserSteps.Proofs.Run.StaticErrors
import BrowserSteps.Proofs.Run.StopPolicy
import BrowserSteps.Proofs.Run.Traffic
import BrowserSteps.Proofs.Run.Verdict
import BrowserSteps.Proofs.Session.Instant
import BrowserSteps.Proofs.Session.Ledger
import BrowserSteps.Proofs.Session.Lifecycle
import BrowserSteps.Proofs.Session.Orderly
import BrowserSteps.Proofs.Session.Release
import BrowserSteps.Proofs.Session.Traffic
import BrowserSteps.Proofs.Step.Refusal
import BrowserSteps.Proofs.Step.RoundTrip
import BrowserSteps.Proofs.Step.Selectors
import BrowserSteps.Proofs.Step.Writable
import BrowserSteps.Proofs.Template.Build
import BrowserSteps.Proofs.Template.Filling
import BrowserSteps.Proofs.Template.Leftmost
import BrowserSteps.Proofs.Text.Lines
import BrowserSteps.Proofs.Text.Numeral
import BrowserSteps.Proofs.Wait.Alignment
import BrowserSteps.Proofs.Wait.Ending
import BrowserSteps.Proofs.Wait.Lateness
import BrowserSteps.Proofs.Wait.Polling
import BrowserSteps.Proofs.Wait.Probes
import BrowserSteps.Proofs.Wait.Schedule
import BrowserSteps.Proofs.Wait.Seconds
import BrowserSteps.Proofs.Wait.Undisturbed
import BrowserSteps.Proofs.Wait.Watch
import BrowserSteps.Session.Direct
import BrowserSteps.Proofs.Lint.SleepValue
import BrowserSteps.Proofs.Calendar
import BrowserSteps.Proofs.Run.Layout
import BrowserSteps.Proofs.Run.Screenshots
import BrowserSteps.Proofs.Template.Occurrence
import BrowserSteps.Proofs.Template.Simultaneous
import BrowserSteps.Proofs.Template.Retention
import BrowserSteps.Proofs.Template.Listing
import BrowserSteps.Proofs.Run.Succession
import BrowserSteps.Run.Runner
