/-!
Lines of a text. Besides LF, CR and the pair CR LF, a line ends at the vertical tab, the
form feed, the separators of files, groups and records, U+0085 and the line and paragraph
separators. A break at the very end opens no further line.
-/

namespace BrowserSteps.Text

/-- Characters that end a line. -/
def isLineBreak (c : Char) : Bool :=
  let n := c.toNat
  (10 ≤ n && n ≤ 13) || (0x1c ≤ n && n ≤ 0x1e) || n == 0x85 || n == 0x2028 || n == 0x2029

/-- Puts a character in front of the first line. -/
def prependChar (c : Char) : List (List Char) → List (List Char)
  | [] => [[c]]
  | line :: rest => (c :: line) :: rest

/-- The lines of a text, without their breaks. -/
def lines : List Char → List (List Char)
  | [] => []
  | '\r' :: '\n' :: rest => [] :: lines rest
  | c :: rest => if isLineBreak c then [] :: lines rest else prependChar c (lines rest)

/-- The lines of a string. -/
def splitLines (s : String) : List String := (lines s.toList).map String.ofList

end BrowserSteps.Text
