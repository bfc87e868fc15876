import BrowserSteps.Yaml.Cursor

/-!
Quoted scalars. Between single quotes a doubled quote is the only escape; between double
quotes a backslash starts one. Line breaks are folded: a single one becomes a space, of
several the first is dropped; blanks around them vanish.
-/

namespace BrowserSteps.Yaml.Quoted

/-- What the letters of short escapes stand for. -/
def shortEscapes : List (Char × Char) := [
  ('0', '\x00'), ('a', '\x07'), ('b', '\x08'), ('t', '\t'), ('\t', '\t'), ('n', '\n'),
  ('v', '\x0b'), ('f', '\x0c'), ('r', '\r'), ('e', '\x1b'), (' ', ' '), ('"', '"'),
  ('/', '/'), ('\\', '\\'), ('N', '\x85'), ('_', '\xa0'), ('L', '\u2028'), ('P', '\u2029')]

/-- How many hexadecimal digits follow the letters of numeric escapes. -/
def numericEscapes : List (Char × Nat) := [('x', 2), ('u', 4), ('U', 8)]

/-- The value of a hexadecimal digit. -/
def hexValue? (c : Char) : Option Nat :=
  if '0' ≤ c ∧ c ≤ '9' then some (c.toNat - '0'.toNat)
  else if 'a' ≤ c ∧ c ≤ 'f' then some (c.toNat - 'a'.toNat + 10)
  else if 'A' ≤ c ∧ c ≤ 'F' then some (c.toNat - 'A'.toNat + 10)
  else none

/-- The number that hexadecimal digits write. -/
def ofHex (digits : List Nat) : Nat := digits.foldl (fun n d => 16 * n + d) 0

/-- The line breaks that follow one another, with blanks around them dropped. The bound is
on their number. -/
def breaks : Nat → Cursor → Except Fault (List Char × Cursor)
  | 0, c => .ok ([], c)
  | bound + 1, c =>
    if c.atSeparator then .error (c.problem .separatorInQuote)
    else
      match (c.skipWhile isSpaceOrTab).takeBreak with
      | (none, c) => .ok ([], c)
      | (some b, c) => do
        let (more, c) ← breaks bound c
        return (b :: more, c)

/-- Blanks, or folded line breaks. -/
def blanks (c : Cursor) : Except Fault (List Char × Cursor) :=
  let (text, c) := c.span isSpaceOrTab
  if c.peek = endMark then .error (c.problem .unclosedQuote)
  else
    match c.takeBreak with
    | (none, c) => .ok (text, c)
    | (some b, c) => do
      let (more, c) ← breaks (c.rest.length + 1) c
      let first := if b ≠ '\n' then [b] else if more.isEmpty then [' '] else []
      return (first ++ more, c)

/-- The character that a number escapes. -/
def character (code : Nat) : Except Fault Char :=
  if code < 0x110000 then .ok (if code.isValidChar then Char.ofNat code else '\ufffd')
  else .error (.value (.badCharacter code))

/-- What an escape stands for; the cursor is behind its backslash. -/
def escape (c : Cursor) : Except Fault (List Char × Cursor) :=
  match shortEscapes.lookup c.peek with
  | some ch => .ok ([ch], c.next)
  | none =>
    match numericEscapes.lookup c.peek with
    | some count =>
      let c := c.next
      let digits := (c.rest.take count).filterMap hexValue?
      if digits.length = count then (character (ofHex digits)).map fun ch => ([ch], c.skip count)
      else .error (c.problem .malformedEscape)
    | none =>
      match c.takeBreak with
      | (some _, c) => breaks (c.rest.length + 1) c
      | (none, c) => .error (c.problem .unknownEscape)

/-- The text up to the closing quote, after what has been read of it in reverse. The bound
is on the number of pieces. -/
def body (double : Bool) : Nat → List Char → Cursor → Except Fault (List Char × Cursor)
  | 0, _, c => .error (c.problem .unclosedQuote)
  | bound + 1, read, c =>
    let quote := if double then '"' else '\''
    if isSpaceOrTab c.peek || isBreak c.peek || c.peek = endMark then do
      let (text, c) ← blanks c
      body double bound (text.reverse ++ read) c
    else if !double && c.startsWith "''" then body double bound ('\'' :: read) (c.skip 2)
    else if c.peek = quote then .ok (read.reverse, c.next)
    else if double && c.peek = '\\' then do
      let (text, c) ← escape c.next
      body double bound (text.reverse ++ read) c
    else body double bound (c.peek :: read) c.next

/-- The scalar whose opening quote is at the cursor. -/
def scan (double : Bool) (c : Cursor) : Except Fault (String × Cursor) :=
  (body double (c.rest.length + 1) [] c.next).map fun (text, c) => (String.ofList text, c)

end BrowserSteps.Yaml.Quoted
