import BrowserSteps.Yaml.Scalar.Block
import BrowserSteps.Yaml.Scalar.Plain
import BrowserSteps.Yaml.Token.Property

/-!
From characters to tokens. Whether something is a key shows only at the colon behind it, so
that the lexer remembers what may turn out to be one; a key has at most 1024 characters
and stands on a single line. In blocks, a key or an entry that is indented further than
what it is in opens a collection, and one that is indented less closes some.
-/

namespace BrowserSteps.Yaml

/-- What may turn out to be a key: the number of its first token, and where it stands. -/
structure Candidate where
  number : Nat
  /-- Whether nothing else than a key may stand here. -/
  required : Bool
  index : Nat
  place : Place
  deriving Repr

/-- The two kinds of brackets. -/
inductive Bracket where
  | square
  | curly
  deriving DecidableEq, Repr

structure Lexer where
  cursor : Cursor
  tokens : Array Token := #[]
  /-- The open brackets, innermost first. -/
  brackets : List Bracket := []
  /-- The column of the innermost block collection; minus one outside of all. -/
  indent : Int := -1
  /-- The columns of the block collections around it. -/
  outer : List Int := []
  /-- Whether a key may start here. -/
  keyAllowed : Bool := true
  /-- Candidates by the number of brackets around them. -/
  candidates : List (Nat × Candidate) := []
  version : Version := .current
  /-- How many tokens were settled before the current step. -/
  taken : Nat := 0
  finished : Bool := false

namespace Lexer

/-- The number of open brackets. -/
def level (s : Lexer) : Nat := s.brackets.length

def inFlow (s : Lexer) : Bool := !s.brackets.isEmpty

/-- How many tokens are settled: those in front of all candidates. -/
def settled (s : Lexer) : Nat :=
  (s.candidates.map (·.2.number)).foldl min s.tokens.size

/-- Goes past spaces, line breaks and comments, and past tabs inside brackets. The bound is
on the number of lines. -/
def skipBlanks : Nat → Lexer → Lexer
  | 0, s => s
  | bound + 1, s =>
    let c := s.cursor.skipWhile fun ch => ch = ' ' || (s.inFlow && ch = '\t')
    let c := if c.peek = '#' then c.skipWhile (!endsLine ·) else c
    match c.takeBreak with
    | (some _, c) =>
      skipBlanks bound { s with cursor := c, keyAllowed := s.keyAllowed || !s.inFlow }
    | (none, c) => { s with cursor := c }

/-- Goes past what may stand in front of a token. -/
def skipToToken (s : Lexer) : Lexer :=
  let c := s.cursor
  let c := if c.index = 0 && c.peek = orderMark then c.next else c
  skipBlanks (c.rest.length + 1) { s with cursor := c }

/-- Drops candidates that can no longer be keys. -/
def dropStale (s : Lexer) : Except Fault Lexer :=
  let stale (k : Candidate) : Bool :=
    k.place.line ≠ s.cursor.line || 1024 < s.cursor.index - k.index
  if s.candidates.any fun (_, k) => stale k && k.required then
    .error (s.cursor.problem .keyWithoutColon)
  else .ok { s with candidates := s.candidates.filter fun (_, k) => !stale k }

/-- Drops the candidate inside the innermost bracket. -/
def dropCandidate (s : Lexer) : Except Fault Lexer :=
  match s.candidates.lookup s.level with
  | some k =>
    if k.required then .error (s.cursor.problem .keyWithoutColon)
    else .ok { s with candidates := s.candidates.filter (·.1 ≠ s.level) }
  | none => .ok s

/-- Remembers that the next token may be a key. -/
def saveCandidate (s : Lexer) : Except Fault Lexer :=
  if s.keyAllowed then do
    let required := !s.inFlow && s.indent = s.cursor.column
    let s ← s.dropCandidate
    let k : Candidate := ⟨s.tokens.size, required, s.cursor.index, s.cursor.place⟩
    return { s with candidates := (s.level, k) :: s.candidates }
  else .ok s

/-- Closes the block collections that reach further than a column. -/
def unwind (column : Int) (s : Lexer) : Lexer :=
  if s.inFlow then s else go s.outer s
where
  go : List Int → Lexer → Lexer
    | [], s => s
    | parent :: others, s =>
      if column < s.indent then
        go others { s with
          indent := parent, outer := others
          tokens := s.tokens.push (.mark .blockEnd s.cursor.place) }
      else s

/-- Whether a column is further in than all block collections; if so a new one is open
there. -/
def openBlock (column : Nat) (s : Lexer) : Bool × Lexer :=
  if s.indent < column then (true, { s with outer := s.indent :: s.outer, indent := column })
  else (false, s)

/-- Adds a token that ends where the cursor then stands. -/
def push (kind : TokenKind) (start : Place) (after : Cursor) (s : Lexer) : Lexer :=
  { s with tokens := s.tokens.push ⟨kind, start, after.place⟩, cursor := after }

/-- Adds the token of a single character. -/
def pushOne (kind : TokenKind) (s : Lexer) : Lexer :=
  s.push kind s.cursor.place s.cursor.next

/-- Opens a block collection at the cursor, if one is due. -/
def openHere (kind : TokenKind) (s : Lexer) : Lexer :=
  match s.openBlock s.cursor.column with
  | (true, s) => { s with tokens := s.tokens.push (.mark kind s.cursor.place) }
  | (false, s) => s

/-- Closes all blocks and allows no key. -/
def outermost (s : Lexer) : Except Fault Lexer := do
  let s ← (s.unwind (-1)).dropCandidate
  return { s with keyAllowed := false }

def streamEnd (s : Lexer) : Except Fault Lexer := do
  let s ← s.outermost
  return { s.push .streamEnd s.cursor.place s.cursor with candidates := [], finished := true }

def directive (s : Lexer) : Except Fault Lexer := do
  let s ← s.outermost
  let (value, stop, c) ← Property.directive s.version s.cursor
  let version := match value with
    | .version v => v
    | _ => s.version
  return { s with
    tokens := s.tokens.push ⟨.directive value, s.cursor.place, stop⟩, cursor := c, version }

def documentMark (kind : TokenKind) (s : Lexer) : Except Fault Lexer := do
  let s ← s.outermost
  return s.push kind s.cursor.place (s.cursor.skip 3)

def openBracket (bracket : Bracket) (kind : TokenKind) (s : Lexer) : Except Fault Lexer := do
  let s ← s.saveCandidate
  return pushOne kind { s with brackets := bracket :: s.brackets, keyAllowed := true }

def closeBracket (kind : TokenKind) (s : Lexer) : Except Fault Lexer := do
  let s ← s.dropCandidate
  return pushOne kind { s with brackets := s.brackets.tail, keyAllowed := false }

def flowEntry (s : Lexer) : Except Fault Lexer := do
  let s ← dropCandidate { s with keyAllowed := true }
  return s.pushOne .flowEntry

def blockEntry (s : Lexer) : Except Fault Lexer := do
  if !s.inFlow && !s.keyAllowed then .error (s.cursor.problem .entryNotAllowed)
  else
    let s := if s.inFlow then s else s.openHere .blockSequenceStart
    let s ← dropCandidate { s with keyAllowed := true }
    return s.pushOne .blockEntry

def key (s : Lexer) : Except Fault Lexer := do
  if !s.inFlow && !s.keyAllowed then .error (s.cursor.problem .keyNotAllowed)
  else
    let s := if s.inFlow then s else s.openHere .blockMappingStart
    let s ← dropCandidate { s with keyAllowed := !s.inFlow }
    return s.pushOne .key

/-- Turns a candidate into a key, which may open a block mapping. -/
def confirm (k : Candidate) (s : Lexer) : Lexer :=
  let s := { s with
    candidates := s.candidates.filter (·.1 ≠ s.level), keyAllowed := false
    tokens := s.tokens.insertIdx! k.number (.mark .key k.place) }
  if s.inFlow then s
  else
    match s.openBlock k.place.column with
    | (true, s) =>
      { s with tokens := s.tokens.insertIdx! k.number (.mark .blockMappingStart k.place) }
    | (false, s) => s

def value (s : Lexer) : Except Fault Lexer := do
  match s.candidates.lookup s.level with
  | some k => return (s.confirm k).pushOne .value
  | none =>
    if !s.inFlow && !s.keyAllowed then .error (s.cursor.problem .valueNotAllowed)
    else
      let s := if s.inFlow then s else s.openHere .blockMappingStart
      let s ← dropCandidate { s with keyAllowed := !s.inFlow }
      return s.pushOne .value

/-- Adds a token that may start a key. -/
def content (read : Lexer → Except Fault (TokenKind × Cursor)) (s : Lexer) :
    Except Fault Lexer := do
  let s ← s.saveCandidate
  let (kind, c) ← read s
  return { s.push kind s.cursor.place c with keyAllowed := false }

def anchor (kind : String → TokenKind) : Lexer → Except Fault Lexer :=
  content fun s => (Property.anchorName s.cursor).map fun (name, c) => (kind name, c)

def tag : Lexer → Except Fault Lexer :=
  content fun s => (Property.tag s.version s.cursor).map fun (name, c) => (.tag name, c)

def quoted (double : Bool) : Lexer → Except Fault Lexer :=
  content fun s => (Quoted.scan double s.cursor).map fun (text, c) => (.scalar text false, c)

def block (folded : Bool) (s : Lexer) : Except Fault Lexer := do
  let s ← dropCandidate { s with keyAllowed := true }
  let (text, c) ← Block.scan folded s.indent s.cursor
  return s.push (.scalar text false) s.cursor.place c

def plain (s : Lexer) : Except Fault Lexer := do
  let s ← s.saveCandidate
  let p := Plain.scan ⟨s.inFlow, s.version = .old⟩ s.indent s.cursor
  return { s with
    tokens := s.tokens.push ⟨.scalar p.text true, s.cursor.place, p.stop⟩
    cursor := p.cursor, keyAllowed := p.broken }

/-- Whether the last token is that of a value and was not settled yet. -/
def afterValue (s : Lexer) : Bool :=
  s.taken < s.tokens.size && s.tokens.back?.any (·.kind = .value)

/-- Whether the colon at the cursor is followed by a value. -/
def atValue (s : Lexer) : Bool :=
  endsWord (s.cursor.peekAt 1) ||
    (s.inFlow && (s.version = .old || !(s.brackets.head? = some .square || s.afterValue)))

/-- Characters that no plain scalar starts with without further ado. -/
def indicators : List Char := "-?:,[]\x7b\x7d#&*!|>'\"%@`".toList

/-- Whether a plain scalar starts at the cursor. -/
def atPlain (s : Lexer) : Bool :=
  let ch := s.cursor.peek
  let after := s.cursor.peekAt 1
  !(ch = endMark || ch = ' ' || ch = '\t' || isBreak ch || indicators.contains ch) ||
    (s.version ≠ .old && ch = ':' && s.inFlow && !isSpaceOrTab after) ||
    (!endsWord after && (ch = '-' || (!s.inFlow && (ch = '?' || ch = ':'))))

/-- Adds the next token, given the character it starts with. -/
def dispatch (s : Lexer) : Except Fault Lexer :=
  let c := s.cursor
  let ch := c.peek
  let spaced := endsWord (c.peekAt 1)
  if ch = endMark then s.streamEnd
  else if ch = '%' && c.column = 0 then s.directive
  else if c.column = 0 && c.atMarker "---" then s.documentMark .documentStart
  else if c.column = 0 && c.atMarker "..." then s.documentMark .documentEnd
  else if ch = '[' then s.openBracket .square .flowSequenceStart
  else if ch = '\x7b' then s.openBracket .curly .flowMappingStart
  else if ch = ']' then s.closeBracket .flowSequenceEnd
  else if ch = '\x7d' then s.closeBracket .flowMappingEnd
  else if ch = ',' then s.flowEntry
  else if ch = '-' && spaced then s.blockEntry
  else if ch = '?' && (s.inFlow || spaced) then s.key
  else if ch = ':' && s.atValue then s.value
  else if ch = '*' then s.anchor .alias
  else if ch = '&' then s.anchor .anchor
  else if ch = '!' then s.tag
  else if ch = '|' && !s.inFlow then s.block false
  else if ch = '>' && !s.inFlow then s.block true
  else if ch = '\'' then s.quoted false
  else if ch = '"' then s.quoted true
  else if s.atPlain then s.plain
  else .error (c.problem .noTokenStartsHere)

/-- Adds the next token and looks which candidates are left. -/
def step (s : Lexer) : Except Fault Lexer := do
  let s ← (skipToToken { s with taken := s.settled }).dropStale
  let s ← (s.unwind s.cursor.column).dispatch
  if s.finished then return s else s.dropStale

/-- Adds tokens up to the end or to the first problem; then the settled tokens and the
problem are left. The bound is on the number of steps. -/
def run : Nat → Lexer → List Token × Option Fault
  | 0, s => (s.tokens.toList, none)
  | bound + 1, s =>
    match s.step with
    | .error e => ((s.tokens.extract 0 s.settled).toList, some e)
    | .ok s => if s.finished then (s.tokens.toList, none) else run bound s

end Lexer

/-- The tokens of a text that come before the first problem, and the problem. -/
def tokens (text : List Char) : List Token × Option Fault :=
  Lexer.run (text.length + 2) { cursor := { rest := text } }

end BrowserSteps.Yaml
