import BrowserSteps.Yaml.Cursor

/-!
Plain scalars: text without quotes. A colon ends one if a blank follows, a number sign if a
blank precedes it; inside brackets the marks of collections end it too. It may go on on
further lines, whose breaks are folded.
-/

namespace BrowserSteps.Yaml.Plain

/-- Where a scalar stands: inside brackets or not, and by which version it is read. -/
structure Context where
  inFlow : Bool
  /-- Whether a question mark ends a scalar inside brackets. -/
  oldMarks : Bool

/-- Whether a scalar goes on with a character, given the one after it. -/
def goesOn (x : Context) (c after : Char) : Bool :=
  if c = ':' && !endsWord after then true
  else if c = '?' && !x.oldMarks then true
  else !(endsWord c || c = ':' || (x.inFlow && ",?[]\x7b\x7d".toList.contains c))

/-- The text up to the next blank or mark. -/
def word (x : Context) : List Char → List Char
  | [] => []
  | c :: rest => if goesOn x c (rest.headD endMark) then c :: word x rest else []

/-- What lies between two words of a scalar. -/
structure Between where
  /-- The blanks or the folded breaks; nothing if the scalar cannot go on. -/
  text : List Char
  broken : Bool
  cursor : Cursor

/-- Further line breaks and spaces; nothing if a document starts or ends on the way. The
bound is on the number of characters. -/
def moreBreaks : Nat → List Char → Cursor → Option (List Char) × Cursor
  | 0, breaks, c => (some breaks.reverse, c)
  | bound + 1, breaks, c =>
    if c.peek = ' ' then moreBreaks bound breaks c.next
    else
      match c.takeBreak with
      | (none, c) => (some breaks.reverse, c)
      | (some b, c) =>
        if c.atSeparator then (none, c) else moreBreaks bound (b :: breaks) c

/-- What lies between the cursor and the next word. -/
def between (c : Cursor) : Between :=
  let (spaces, c) := c.span (· = ' ')
  match c.takeBreak with
  | (none, c) => ⟨spaces, false, c⟩
  | (some b, c) =>
    if c.atSeparator then ⟨[], true, c⟩
    else
      match moreBreaks (c.rest.length + 1) [] c with
      | (none, c) => ⟨[], true, c⟩
      | (some more, c) =>
        let first := if b ≠ '\n' then [b] else if more.isEmpty then [' '] else []
        ⟨first ++ more, true, c⟩

/-- A plain scalar. -/
structure Scalar where
  text : String
  stop : Place
  /-- Whether a line break follows it. -/
  broken : Bool
  cursor : Cursor

/-- Reads words while the scalar goes on. What has been read is in reverse; `gap` is what
would stand in front of the next word. The bound is on the number of words. -/
def words (x : Context) (indent : Int) :
    Nat → List Char → Place → Between → List Char × Place × Between
  | 0, read, stop, gap => (read, stop, gap)
  | bound + 1, read, stop, gap =>
    let text := if gap.cursor.peek = '#' then [] else word x gap.cursor.rest
    if text.isEmpty then (read, stop, gap)
    else
      let c := gap.cursor.skip text.length
      let read := text.reverse ++ (gap.text.reverse ++ read)
      let gap := between c
      if gap.text.isEmpty || gap.cursor.peek = '#' ||
          (!x.inFlow && (gap.cursor.column : Int) < indent) then
        (read, c.place, gap)
      else words x indent bound read c.place gap

/-- The scalar at the cursor, below an indentation. -/
def scan (x : Context) (parentIndent : Int) (c : Cursor) : Scalar :=
  let (read, stop, gap) := words x (parentIndent + 1) (c.rest.length + 1) [] c.place ⟨[], false, c⟩
  ⟨String.ofList read.reverse, stop, gap.broken, gap.cursor⟩

end BrowserSteps.Yaml.Plain
