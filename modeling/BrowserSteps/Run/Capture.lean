import BrowserSteps.Browser.Failure
import BrowserSteps.Calendar
import BrowserSteps.Files.Tree

/-!
Where screenshots go: below the base directory a directory for the day, one for the tag and
one for the time of the run, and in it a file for each screenshot, named after its step and
the time of day.
-/

namespace BrowserSteps.Capture

/-- Characters that file names do without. -/
def isForbidden (c : Char) : Bool := "\\/:*?\"<>|".toList.contains c || c.toNat < 0x20

/-- A text as a file name. Forbidden characters become underscores, and so do the dots of
the two names that stand for directories. -/
def fileName (name : String) : String :=
  if name = "." then "_"
  else if name = ".." then "__"
  else String.ofList (name.toList.map fun c => if isForbidden c then '_' else c)

/-- A time of day as part of a file name. -/
def shortTime (t : DateTime) : String := t.clockText ""

/-- The directory of a run. -/
def runDirectory (base : Path) (tag : String) (t : DateTime) : Path :=
  ((base.child t.dayText).child (fileName tag)).child (shortTime t)

/-- The file of a screenshot. -/
def screenshotPath (directory : Path) (stepName : String) (t : DateTime) : Path :=
  directory.child (fileName stepName ++ "_" ++ shortTime t ++ ".png")

/-- The entry of a screenshot that was not saved. -/
def failureMessage (e : Failure) : String := "capture failure " ++ e.summary

end BrowserSteps.Capture
