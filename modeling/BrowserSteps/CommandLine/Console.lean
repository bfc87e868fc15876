/-!
What takes the lines that a command prints. It may refuse a line, as an output does that cannot
encode it, or that is closed; nothing of such a line is printed. Lines among the errors are never
refused.
-/

namespace BrowserSteps.CommandLine

/-- An output: what it says of a line that it refuses, after the lines that it has taken. -/
structure Console where
  refusal? : (taken : List String) → (line : String) → Option String

namespace Console

/-- The output that takes every line. -/
def tolerant : Console := ⟨fun _ _ => none⟩

/-- Prints lines after others, up to the first that is refused. Answers all that has been printed, and
what was said of the refused line. -/
def print (c : Console) (taken : List String) : List String → List String × Option String
  | [] => (taken, none)
  | line :: rest =>
    match c.refusal? taken line with
    | some said => (taken, some said)
    | none => c.print (taken ++ [line]) rest

end Console

end BrowserSteps.CommandLine
