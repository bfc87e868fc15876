import BrowserSteps.Pattern.Matcher
import BrowserSteps.Pattern.Reader

/-!
Replacing. Matches are found from left to right; after an empty match the next one must
not be empty at the same place.
-/

namespace BrowserSteps.Pattern

/-- Replaces all matches from a position on. The bound is twice the number of characters
left, and two. -/
def Node.replaceFrom (p : Node) (value : List Char) : Nat → Cursor → Bool → List Char
  | 0, s, _ => s.after
  | bound + 1, s, advance =>
    match p.search { s with groups := [] } advance with
    | none => s.after
    | some (start, later) =>
      s.taken start ++ value ++ p.replaceFrom value bound later (later.index = start.index)

/-- Replaces all matches in a text. -/
def Node.replaceAll (p : Node) (value text : List Char) : List Char :=
  p.replaceFrom value (2 * text.length + 2) { after := text } false

/-- Replaces the occurrences of a word, which is not empty, from left to right. The bound is
the number of characters. -/
def replaceWordFrom (word value : List Char) : Nat → List Char → List Char
  | 0, text => text
  | _ + 1, [] => []
  | bound + 1, c :: rest =>
    if word.isPrefixOf (c :: rest) then
      value ++ replaceWordFrom word value bound ((c :: rest).drop word.length)
    else c :: replaceWordFrom word value bound rest

/-- Puts a value before every character and at the end. -/
def interleave (value : List Char) : List Char → List Char
  | [] => value
  | c :: rest => value ++ c :: interleave value rest

/-- Replaces the occurrences of a word; the empty word occurs between all characters. -/
def replaceWord (word value text : List Char) : List Char :=
  if word.isEmpty then interleave value text
  else replaceWordFrom word value text.length text

end BrowserSteps.Pattern
