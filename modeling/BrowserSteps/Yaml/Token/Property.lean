import BrowserSteps.Text.Utf8
import BrowserSteps.Yaml.Scalar.Quoted
import BrowserSteps.Yaml.Token

/-!
Anchors, aliases, tags and directives.
-/

namespace BrowserSteps.Yaml

namespace Property

/-- Characters of anchor names: all visible ones but the marks of collections. -/
def isAnchorChar (c : Char) : Bool :=
  let n := c.toNat
  !(",[]\x7b\x7d".toList.contains c) &&
    ((0x21 ≤ n && n ≤ 0x7e) || (0xa0 ≤ n && n ≤ 0xd7ff) ||
      (0xe000 ≤ n && n ≤ 0xfffd && c ≠ orderMark) || 0x10000 ≤ n)

/-- The name of an anchor or an alias; the cursor is at its indicator. -/
def anchorName (c : Cursor) : Except Fault (String × Cursor) :=
  let (name, c) := c.next.span isAnchorChar
  if name.isEmpty then .error (c.problem .malformedAnchor)
  else if isGap c.peek || c.peek = '\t' || ",[]\x7b\x7d".toList.contains c.peek then
    .ok (String.ofList name, c)
  else .error (c.problem .malformedAnchor)

def isAlphanumeric (c : Char) : Bool :=
  ('0' ≤ c ∧ c ≤ '9') || ('A' ≤ c ∧ c ≤ 'Z') || ('a' ≤ c ∧ c ≤ 'z')

/-- Characters of a URI. A number sign is one of them in newer versions only. -/
def isUriChar (version : Version) (c : Char) : Bool :=
  isAlphanumeric c || "-;/?:@&=+$,_.!~*'()[]%".toList.contains c || (version.isNew && c = '#')

/-- The bytes of percent escapes. The bound is on their number. -/
def escapedBytes : Nat → Text.Bytes → Cursor → Except Fault (Text.Bytes × Cursor)
  | 0, bytes, c => .ok (bytes.reverse, c)
  | bound + 1, bytes, c =>
    if c.peek = '%' then
      let c := c.next
      match (c.rest.take 2).filterMap Quoted.hexValue? with
      | [a, b] => escapedBytes bound ((16 * a + b).toUInt8 :: bytes) (c.skip 2)
      | _ => .error (c.problem .malformedUri)
    else .ok (bytes.reverse, c)

/-- The characters of a URI, with its escapes decoded. The bound is on the number of
pieces. -/
def uriChars (version : Version) : Nat → List Char → Cursor → Except Fault (List Char × Cursor)
  | 0, read, c => .ok (read.reverse, c)
  | bound + 1, read, c =>
    if c.peek = '%' then do
      let (bytes, after) ← escapedBytes (c.rest.length + 1) [] c
      match Text.decodeUtf8 bytes with
      | .ok text => uriChars version bound (text.toList.reverse ++ read) after
      | .error _ => .error (c.problem .malformedUri)
    else if isUriChar version c.peek then uriChars version bound (c.peek :: read) c.next
    else .ok (read.reverse, c)

def uri (version : Version) (c : Cursor) : Except Fault (String × Cursor) := do
  if isUriChar version c.peek then
    let (text, c) ← uriChars version (c.rest.length + 1) [] c
    return (String.ofList text, c)
  else .error (c.problem .malformedUri)

/-- A tag handle: one exclamation mark, or a word between two. -/
def handle (c : Cursor) : Except Fault (String × Cursor) :=
  if c.peek ≠ '!' then .error (c.problem .malformedTag)
  else if c.peekAt 1 = ' ' then .ok ("!", c.next)
  else
    let word := (c.rest.drop 1).takeWhile fun ch => isAlphanumeric ch || ch = '-' || ch = '_'
    let after := c.skip (word.length + 1)
    if after.peek = '!' then .ok (String.ofList ('!' :: word ++ ['!']), after.next)
    else .error (after.problem .malformedTag)

/-- Whether the word at the cursor has an exclamation mark after the one it starts with. -/
def hasHandle (c : Cursor) : Bool := ((c.rest.drop 1).takeWhile (!isGap ·)).contains '!'

/-- A verbatim tag, which stands between angle brackets. -/
def verbatim (version : Version) (c : Cursor) : Except Fault (TagName × Cursor) := do
  let (suffix, c) ← uri version (c.skip 2)
  if c.peek = '>' then return (⟨none, suffix⟩, c.next) else .error (c.problem .malformedTag)

/-- The tag at the cursor. -/
def tag (version : Version) (c : Cursor) : Except Fault (TagName × Cursor) := do
  let (name, c) ←
    if c.peekAt 1 = '<' then verbatim version c
    else if endsWord (c.peekAt 1) then pure (⟨none, "!"⟩, c.next)
    else do
      let (handle, c) ← if hasHandle c then handle c else pure ("!", c.next)
      let (suffix, c) ← uri version c
      pure (⟨some handle, suffix⟩, c)
  if isGap c.peek then return (name, c) else .error (c.problem .malformedTag)

/-- Digits of a version. -/
def number (c : Cursor) : Except Fault (Nat × Cursor) :=
  let (digits, c) := c.span fun ch => '0' ≤ ch ∧ ch ≤ '9'
  if digits.isEmpty then .error (c.problem .malformedDirective)
  else .ok (digits.foldl (fun n d => 10 * n + (d.toNat - '0'.toNat)) 0, c)

/-- The value of a version directive. -/
def versionValue (c : Cursor) : Except Fault (Directive × Cursor) := do
  let (major, c) ← number (c.skipWhile (· = ' '))
  if c.peek ≠ '.' then .error (c.problem .malformedDirective)
  else
    let (minor, c) ← number c.next
    if isGap c.peek then return (.version ⟨major, minor⟩, c)
    else .error (c.problem .malformedDirective)

/-- The value of a directive that gives a handle a meaning. -/
def handleValue (version : Version) (c : Cursor) : Except Fault (Directive × Cursor) := do
  let (name, c) ← handle (c.skipWhile (· = ' '))
  if c.peek ≠ ' ' then .error (c.problem .malformedDirective)
  else
    let (text, c) ← uri version (c.skipWhile (· = ' '))
    if isGap c.peek then return (.handle name text, c) else .error (c.problem .malformedDirective)

/-- The directive at the cursor, and where it ends before the rest of its line. -/
def directive (version : Version) (c : Cursor) : Except Fault (Directive × Place × Cursor) := do
  let (name, c) := c.next.span fun ch => isAlphanumeric ch || "-_:.".toList.contains ch
  if name.isEmpty || !isGap c.peek then .error (c.problem .malformedDirective)
  else
    let (value, c) ←
      if name = "YAML".toList then versionValue c
      else if name = "TAG".toList then handleValue version c
      else pure (.unknown, c.skipWhile (!endsLine ·))
    let stop := c.place
    let c := c.skipWhile (· = ' ')
    let c := if c.peek = '#' then c.skipWhile (!endsLine ·) else c
    if endsLine c.peek then return (value, stop, c.takeBreak.2)
    else .error (c.problem .malformedDirective)

end Property

end BrowserSteps.Yaml
