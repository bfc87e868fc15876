import BrowserSteps.Yaml.Cursor

/-!
Block scalars: the lines below a header that are indented as far as the first of them, or
as far as the header says. A literal one keeps its line breaks; a folded one turns single
breaks between lines that start with text into spaces. The header also says what becomes
of the breaks at the end.
-/

namespace BrowserSteps.Yaml.Block

/-- What becomes of the line breaks at the end: one is kept, none, or all. -/
inductive Chomping where
  | clip
  | strip
  | keep
  deriving DecidableEq, Repr

structure Header where
  chomping : Chomping := .clip
  /-- How much further the lines are indented than what they belong to. -/
  increment : Option Nat := none
  deriving Repr

/-- Reads a chomping indicator, if there is one. -/
def chomping? (c : Cursor) : Option Chomping × Cursor :=
  if c.peek = '+' then (some .keep, c.next)
  else if c.peek = '-' then (some .strip, c.next)
  else (none, c)

/-- Reads an indentation indicator, if there is one. -/
def increment? (c : Cursor) : Except Fault (Option Nat × Cursor) :=
  if c.peek = '0' then .error (c.problem .malformedBlockHeader)
  else if c.peek.isDigit then .ok (some (c.peek.toNat - '0'.toNat), c.next)
  else .ok (none, c)

/-- Reads the two indicators, in any order. -/
def indicators (c : Cursor) : Except Fault (Header × Cursor) := do
  let (first, c) := chomping? c
  let (increment, c) ← increment? c
  let (last, c) := if first.isNone && increment.isSome then chomping? c else (none, c)
  if isGap c.peek then return ({ chomping := (first <|> last).getD .clip, increment }, c)
  else .error (c.problem .malformedBlockHeader)

/-- Reads the header and the rest of its line, which may hold a comment. -/
def header (c : Cursor) : Except Fault (Header × Cursor) := do
  let (h, c) ← indicators c
  let c := c.skipWhile (· = ' ')
  let c := if c.peek = '#' then c.skipWhile (!endsLine ·) else c
  if endsLine c.peek then return (h, c.takeBreak.2)
  else .error (c.problem .malformedBlockHeader)

/-- Goes past spaces up to a column. -/
def skipIndent (indent : Nat) (c : Cursor) : Cursor :=
  c.skip (min (indent - c.column) (c.rest.takeWhile (· = ' ')).length)

/-- Line breaks in front of the first line with text, and the largest indentation seen on
the way. The bound is on the number of characters. -/
def leading : Nat → Nat → List Char → Cursor → List Char × Nat × Cursor
  | 0, widest, breaks, c => (breaks.reverse, widest, c)
  | bound + 1, widest, breaks, c =>
    if c.peek = ' ' then leading bound (max widest c.next.column) breaks c.next
    else
      match c.takeBreak with
      | (some b, c) => leading bound widest (b :: breaks) c
      | (none, c) => (breaks.reverse, widest, c)

/-- Line breaks of empty lines, which may be indented. The bound is on their number. -/
def emptyLines (indent : Nat) : Nat → List Char → Cursor → List Char × Cursor
  | 0, breaks, c => (breaks.reverse, c)
  | bound + 1, breaks, c =>
    match (skipIndent indent c).takeBreak with
    | (some b, c) => emptyLines indent bound (b :: breaks) c
    | (none, c) => (breaks.reverse, c)

/-- What has been read of a block: its text in reverse, the break after the last line, and
the breaks of the empty lines below it. -/
structure Lines where
  text : List Char := []
  lineBreak : Option Char := none
  breaks : List Char
  cursor : Cursor

/-- How a block is read. -/
structure Layout where
  folded : Bool
  indent : Nat
  /-- Whether the block may stand at the margin, where documents end. -/
  atMargin : Bool

/-- Reads lines while they are indented as far as they must be. The bound is on their
number. -/
def readLines (layout : Layout) : Nat → Lines → Lines
  | 0, b => b
  | bound + 1, b =>
    if b.cursor.column = layout.indent && b.cursor.peek ≠ endMark then
      let startsWithText := !isSpaceOrTab b.cursor.peek
      let (line, c) := b.cursor.span (!endsLine ·)
      let text := line.reverse ++ (b.breaks.reverse ++ b.text)
      let (lineBreak, c) := c.takeBreak
      let (breaks, c) := emptyLines layout.indent (c.rest.length + 1) [] c
      let read : Lines := { text, lineBreak, breaks, cursor := c }
      if layout.atMargin && c.column = 0 && c.atSeparator then read
      else if c.column = layout.indent && c.peek ≠ endMark then
        let between :=
          if layout.folded && lineBreak = some '\n' && startsWithText && !isSpaceOrTab c.peek then
            if breaks.isEmpty then [' '] else []
          else lineBreak.toList
        readLines layout bound { read with text := between ++ text }
      else read
    else b

/-- The scalar whose indicator is at the cursor, below an indentation. -/
def scan (folded : Bool) (parentIndent : Int) (c : Cursor) : Except Fault (String × Cursor) := do
  let (h, c) ← header c.next
  let least := (parentIndent + 1).toNat
  let (breaks, indent, c) := match h.increment with
    | none =>
      let (breaks, widest, c) := leading (c.rest.length + 1) 0 [] c
      (breaks, max least widest, c)
    | some increment =>
      let indent := max least 1 + increment - 1
      let (breaks, c) := emptyLines indent (c.rest.length + 1) [] c
      (breaks, indent, c)
  let b := readLines ⟨folded, indent, h.increment.isNone && least = 0⟩ (c.rest.length + 1)
    { breaks, cursor := c }
  let tail := match h.chomping with
    | .clip => b.lineBreak.toList
    | .strip => []
    | .keep => b.lineBreak.toList ++ b.breaks
  return (String.ofList (b.text.reverse ++ tail), b.cursor)

end BrowserSteps.Yaml.Block
