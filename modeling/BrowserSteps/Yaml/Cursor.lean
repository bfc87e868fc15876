import BrowserSteps.Yaml.Fault

/-!
A cursor in a YAML text: what is left of the text, and where it starts. Lines end at LF, CR
and the pair CR LF; a byte order mark takes no column.
-/

namespace BrowserSteps.Yaml

/-- Characters that may stand in a YAML text. -/
def isPrintable (c : Char) : Bool :=
  let n := c.toNat
  n == 9 || n == 10 || n == 13 || (0x20 ≤ n && n ≤ 0x7e) || n == 0x85 ||
    (0xa0 ≤ n && n ≤ 0xd7ff) || (0xe000 ≤ n && n ≤ 0xfffd) || 0x10000 ≤ n

/-- The character that stands for the end of the text. It is not printable. -/
def endMark : Char := '\x00'

/-- The byte order mark. -/
def orderMark : Char := '\ufeff'

/-- Line breaks, those of earlier versions of the format among them. -/
def isBreak (c : Char) : Bool :=
  c = '\r' || c = '\n' || c = '\x85' || c = '\u2028' || c = '\u2029'

/-- Characters at which a line of text ends. -/
def endsLine (c : Char) : Bool := c = '\n' || c = endMark || c = '\r' || c = '\x85'

/-- Characters at which an indicator is complete. -/
def endsWord (c : Char) : Bool := endsLine c || c = ' ' || c = '\t'

/-- Characters that part directives, tags and block headers from what follows. -/
def isGap (c : Char) : Bool := c = endMark || c = ' ' || isBreak c

def isSpaceOrTab (c : Char) : Bool := c = ' ' || c = '\t'

structure Cursor where
  rest : List Char
  index : Nat := 0
  place : Place := {}
  deriving Repr

namespace Cursor

def line (c : Cursor) : Nat := c.place.line

def column (c : Cursor) : Nat := c.place.column

/-- The character at the cursor. -/
def peek (c : Cursor) : Char := c.rest.headD endMark

/-- The character some steps further on. -/
def peekAt (c : Cursor) (n : Nat) : Char := c.rest.getD n endMark

/-- Goes on by one character. -/
def next (c : Cursor) : Cursor :=
  match c.rest with
  | [] => c
  | ch :: rest =>
    { rest
      index := c.index + 1
      place :=
        if ch = '\n' || (ch = '\r' && rest.head? ≠ some '\n') then ⟨c.line + 1, 0⟩
        else if ch = orderMark then c.place
        else ⟨c.line, c.column + 1⟩ }

/-- Goes on by several characters. -/
def skip : Nat → Cursor → Cursor
  | 0, c => c
  | n + 1, c => skip n c.next

/-- The characters of a class from here on, and what follows them. -/
def span (p : Char → Bool) (c : Cursor) : List Char × Cursor :=
  let text := c.rest.takeWhile p
  (text, c.skip text.length)

/-- Goes past the characters of a class. -/
def skipWhile (p : Char → Bool) (c : Cursor) : Cursor := (c.span p).2

/-- Whether a text follows. -/
def startsWith (c : Cursor) (s : String) : Bool := s.toList.isPrefixOf c.rest

/-- Goes past a line break and answers what it stands for: a line feed, unless it is the
line separator or the paragraph separator. -/
def takeBreak (c : Cursor) : Option Char × Cursor :=
  if c.startsWith "\r\n" then (some '\n', c.skip 2)
  else if c.peek = '\r' || c.peek = '\n' || c.peek = '\x85' then (some '\n', c.next)
  else if c.peek = '\u2028' || c.peek = '\u2029' then (some c.peek, c.next)
  else (none, c)

/-- Whether three characters follow that part documents. -/
def atMarker (c : Cursor) (marker : String) : Bool :=
  c.startsWith marker && endsWord (c.peekAt 3)

/-- Whether a document starts or ends here. -/
def atSeparator (c : Cursor) : Bool := c.atMarker "---" || c.atMarker "..."

/-- A problem at the cursor. -/
def problem (c : Cursor) (p : Problem) : Fault := .form p c.place

end Cursor

end BrowserSteps.Yaml
