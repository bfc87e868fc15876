import BrowserSteps.Calendar
import BrowserSteps.Text.Lines

/-!
The log of a run: stamped entries, one after the other. Its text has a line break between
entries. An entry may hold line breaks of its own, so the log can have more lines than
entries.
-/

namespace BrowserSteps

/-- The entries of a log, in the order in which they were made. -/
structure Log where
  entries : List String := []
  deriving DecidableEq, Repr, Inhabited

namespace Log

/-- An entry: when it was made, the step it is about and what it says. -/
def entry (now : DateTime) (stepName message : String) : String :=
  now.stamp ++ ": Step [" ++ stepName ++ "] " ++ message

def append (log : Log) (entry : String) : Log := ⟨log.entries ++ [entry]⟩

def text (log : Log) : String := "\n".intercalate log.entries

/-- The lines of the text. -/
def lines (log : Log) : List String := Text.splitLines log.text

/-- The entries are added one by one. -/
@[simp] theorem entries_append (log : Log) (e : String) :
    (log.append e).entries = log.entries ++ [e] := rfl

end Log

end BrowserSteps
