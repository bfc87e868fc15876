import BrowserSteps.Json.Reader
import BrowserSteps.Pattern.Basic

/-!
Reading patterns. A character stands for itself unless it is one of the signs of patterns;
an escape of an ASCII letter that has no meaning is an error, as are groups without an end,
repetitions of nothing or of repetitions, references to groups that are not closed yet and
looks behind of no fixed width.
-/

namespace BrowserSteps.Pattern

/-- Why a text is no pattern. -/
inductive ReadError where
  | malformed
  | repetitionTooLarge
  | conflictingFlags
  deriving DecidableEq, Repr

/-- A character, or one behind a backslash. -/
inductive Token where
  | plain (c : Char)
  | escaped (c : Char)
  deriving DecidableEq, Repr, Inhabited

/-- A backslash at the very end escapes nothing. -/
def tokens? : List Char → Option (List Token)
  | [] => some []
  | '\\' :: [] => none
  | '\\' :: c :: rest => (tokens? rest).map (.escaped c :: ·)
  | c :: rest => (tokens? rest).map (.plain c :: ·)

structure Flags where
  ignoreCase : Bool := false
  multiline : Bool := false
  dotAll : Bool := false
  verbose : Bool := false
  ascii : Bool := false
  unicode : Bool := false
  deriving DecidableEq, Repr, Inhabited

def Flags.folding (f : Flags) : Folding :=
  if f.ignoreCase then (if f.ascii then .ascii else .full) else .exact

/-- What has been read so far. -/
structure Progress where
  rest : List Token
  /-- The number of the next group. -/
  next : Nat := 1
  names : List (String × Nat) := []
  /-- The groups that are closed, with their widths. -/
  closed : List (Nat × Nat × Nat) := []
  /-- Inside a look behind: the number of the first group that was opened in it. -/
  behind : Option Nat := none
  /-- The groups that conditions ask for. -/
  asked : List Nat := []
  flags : Flags := {}
  deriving Inhabited

abbrev Parse := StateT Progress (Except ReadError)

/-- The numbers of groups and of repetitions are bounded. -/
def numberLimit : Nat := 4294967295

def groupLimit : Nat := 1073741823

def fail {α : Type} : Parse α := throw .malformed

def peek : Parse (Option Token) := return (← get).rest.head?

def take : Parse (Option Token) := do
  let p ← get
  match p.rest with
  | [] => return none
  | t :: rest =>
    set { p with rest }
    return some t

/-- Takes a character if it comes next. -/
def skip (c : Char) : Parse Bool := do
  if (← peek) = some (.plain c) then
    let _ ← take
    return true
  else return false

/-- Requires a character to come next. -/
def demand (c : Char) : Parse Unit := do
  if !(← skip c) then fail

/-- Takes plain characters of a class, at most `limit` of them. -/
def takeWhilePlain (limit : Nat) (p : Char → Bool) : Parse (List Char) := do
  match limit with
  | 0 => return []
  | limit + 1 =>
    match ← peek with
    | some (.plain c) =>
      if p c then
        let _ ← take
        return c :: (← takeWhilePlain limit p)
      else return []
    | _ => return []

def isHex (c : Char) : Bool := (Json.hexValue? c).isSome

def isOctal (c : Char) : Bool := '0' ≤ c && c ≤ '7'

def hexNumber (s : List Char) : Nat := s.foldl (fun n c => 16 * n + (Json.hexValue? c).getD 0) 0

def octalNumber (s : List Char) : Nat := s.foldl (fun n c => 8 * n + (c.toNat - '0'.toNat)) 0

def decimalNumber (s : List Char) : Nat := s.foldl (fun n c => 10 * n + (c.toNat - '0'.toNat)) 0

/-- A character given by exactly `count` hexadecimal digits. -/
def hexChar (count : Nat) : Parse Char := do
  let digits ← takeWhilePlain count isHex
  if digits.length = count && hexNumber digits < 0x110000 then
    return Char.ofNat (hexNumber digits)
  else fail

/-- Escapes of control characters. -/
def controlEscape? : Char → Option Char
  | 'a' => some '\x07'
  | 'b' => some '\x08'
  | 'f' => some '\x0c'
  | 'n' => some '\n'
  | 'r' => some '\r'
  | 't' => some '\t'
  | 'v' => some '\x0b'
  | '\\' => some '\\'
  | _ => none

def categoryEscape? : Char → Option (Category × Bool)
  | 'd' => some (.digit, false)
  | 'D' => some (.digit, true)
  | 's' => some (.blank, false)
  | 'S' => some (.blank, true)
  | 'w' => some (.word, false)
  | 'W' => some (.word, true)
  | _ => none

/-- Escapes that stand for one character anywhere. -/
def charEscape (c : Char) : Parse Char := do
  match c with
  | 'x' => hexChar 2
  | 'u' => hexChar 4
  | 'U' => hexChar 8
  | _ => if c.isAlpha || c.isDigit then fail else return c

/-- A group may be referred to once it is closed, and inside a look behind only if it was
opened before. -/
def checkReference (number : Nat) : Parse (Nat × Nat) := do
  let p ← get
  match p.closed.lookup number with
  | none => fail
  | some width =>
    match p.behind with
    | some first => if first ≤ number then fail else return width
    | none => return width

def reference (flags : Flags) (number : Nat) : Parse Node := do
  let (low, high) ← checkReference number
  return .reference number flags.folding low high

/-- An escape of digits that starts with no zero: three octal digits are a character, fewer
digits a reference. -/
def digitEscape (flags : Flags) (first : Char) : Parse Node := do
  match ← peek with
  | some (.plain second) =>
    if second.isDigit then
      let _ ← take
      match ← peek with
      | some (.plain third) =>
        if isOctal first && isOctal second && isOctal third then
          let _ ← take
          let n := octalNumber [first, second, third]
          if n > 0o377 then fail else return .one (.single flags.folding (Char.ofNat n))
        else reference flags (decimalNumber [first, second])
      | _ => reference flags (decimalNumber [first, second])
    else reference flags (decimalNumber [first])
  | _ => reference flags (decimalNumber [first])

/-- An escape outside a set. -/
def escape (flags : Flags) (c : Char) : Parse Node := do
  match c with
  | 'A' => return .anchor .textStart
  | 'Z' => return .anchor .textEnd
  | 'b' => return .anchor (.wordEdge false flags.ascii)
  | 'B' => return .anchor (.wordEdge true flags.ascii)
  | _ =>
    match categoryEscape? c, controlEscape? c with
    | some (kind, negated), _ => return .one ⟨false, [.category kind negated flags.ascii], .exact⟩
    | none, some control => return .one (.single flags.folding control)
    | none, none =>
      if c = '0' then
        let digits ← takeWhilePlain 2 isOctal
        return .one (.single flags.folding (Char.ofNat (octalNumber digits)))
      else if c.isDigit then digitEscape flags c
      else return .one (.single flags.folding (← charEscape c))

/-- An escape inside a set. -/
def setEscape (flags : Flags) (c : Char) : Parse Item := do
  match controlEscape? c, categoryEscape? c with
  | some control, _ => return .char control
  | none, some (kind, negated) => return .category kind negated flags.ascii
  | none, none =>
    if isOctal c then
      let n := octalNumber (c :: (← takeWhilePlain 2 isOctal))
      if n > 0o377 then fail else return .char (Char.ofNat n)
    else return .char (← charEscape c)

def setMember (flags : Flags) : Token → Parse Item
  | .plain c => return .char c
  | .escaped c => setEscape flags c

/-- The items of a set up to its closing bracket, which is an item itself if it comes
first. The bound is the number of tokens left. -/
def setItems (flags : Flags) (first : Bool) : Nat → Parse (List Item)
  | 0 => fail
  | bound + 1 => do
    match ← take with
    | none => fail
    | some token =>
      if token = .plain ']' && !first then return []
      else
        let low ← setMember flags token
        if ← skip '-' then
          match ← take with
          | none => fail
          | some (.plain ']') => return [low, .char '-']
          | some token =>
            match low, ← setMember flags token with
            | .char low, .char high =>
              if high < low then fail
              else return .range low high :: (← setItems flags false bound)
            | _, _ => fail
        else return low :: (← setItems flags false bound)

/-- A set whose opening bracket has been read. -/
def charSet (flags : Flags) : Parse Node := do
  let negated ← skip '^'
  let items ← setItems flags true ((← get).rest.length + 1)
  return .one ⟨negated, items, flags.folding⟩

/-- The text up to a character, which is taken too. The bound is the number of tokens. -/
def takeUntil (stop : Char) : Nat → Parse (List Char)
  | 0 => fail
  | bound + 1 => do
    match ← take with
    | none => fail
    | some (.plain c) => if c = stop then return [] else return c :: (← takeUntil stop bound)
    | some (.escaped c) => return '\\' :: c :: (← takeUntil stop bound)

def nameUntil (stop : Char) : Parse (List Char) := do
  let name ← takeUntil stop ((← get).rest.length + 1)
  if name.isEmpty then fail else return name

/-- Names of groups are words that start with no digit. -/
def isIdentifier : List Char → Bool
  | [] => false
  | c :: rest => Text.isWord c && !Text.isDigit c && rest.all Text.isWord

def identifierUntil (stop : Char) : Parse String := do
  let name ← nameUntil stop
  if isIdentifier name then return String.ofList name else fail

/-- Opens a group and answers its number. -/
def openGroup (name : Option String) : Parse Nat := do
  let p ← get
  let names ← match name with
    | none => pure p.names
    | some name =>
      match p.names.lookup name with
      | some _ => fail
      | none => pure ((name, p.next) :: p.names)
  set { p with next := p.next + 1, names }
  return p.next

def closeGroup (number : Nat) (body : Node) : Parse Unit :=
  modify fun p => { p with closed := (number, body.width) :: p.closed }

def numberOfName (name : String) : Parse Nat := do
  match (← get).names.lookup name with
  | some number => return number
  | none => fail

/-- The group that a condition asks for, by name or number. -/
def conditionGroup : Parse Nat := do
  let name ← nameUntil ')'
  if isIdentifier name then
    let number ← numberOfName (String.ofList name)
    let _ ← checkCondition number
    return number
  else
    match Text.readInteger (String.ofList name) with
    | .error _ => fail
    | .ok n =>
      if n ≤ 0 || (groupLimit : Int) ≤ n then fail
      else
        modify fun p => { p with asked := n.toNat :: p.asked }
        let _ ← checkCondition n.toNat
        return n.toNat
where
  /-- Inside a look behind a condition is bound like a reference. -/
  checkCondition (number : Nat) : Parse Unit := do
    if (← get).behind.isSome then
      let _ ← checkReference number

inductive Switch where
  | ignoreCase
  | multiline
  | dotAll
  | verbose
  | ascii
  | unicode
  /-- A switch that is accepted for the whole pattern and changes nothing. -/
  | template
  deriving DecidableEq, Repr

def switch? : Char → Option Switch
  | 'i' => some .ignoreCase
  | 'm' => some .multiline
  | 's' => some .dotAll
  | 'x' => some .verbose
  | 'a' => some .ascii
  | 'u' => some .unicode
  | 't' => some .template
  | _ => none

def Flags.turn (f : Flags) (on : Bool) : Switch → Flags
  | .ignoreCase => { f with ignoreCase := on }
  | .multiline => { f with multiline := on }
  | .dotAll => { f with dotAll := on }
  | .verbose => { f with verbose := on }
  | .ascii => { f with ascii := on }
  | .unicode => { f with unicode := on }
  | .template => f

/-- Switches up to a character that ends them. The bound is the number of tokens. -/
def switches (stops : List Char) (first : Char) : Nat → Parse (List Switch × Char)
  | 0 => fail
  | bound + 1 => do
    match switch? first with
    | none => fail
    | some s =>
      match ← take with
      | some (.plain c) =>
        if stops.contains c then return ([s], c)
        else
          let (more, stop) ← switches stops c bound
          return (s :: more, stop)
      | _ => fail

/-- Within a group the character classes are switched by replacing one choice by another. -/
def Flags.apply (f : Flags) (on off : List Switch) : Flags :=
  let f := if on.contains .ascii || on.contains .unicode then
      { f with ascii := false, unicode := false } else f
  off.foldl (fun f s => f.turn false s) (on.foldl (fun f s => f.turn true s) f)

/-- What a group says about switches: for the whole pattern, or for the group. -/
inductive SwitchScope where
  | whole
  | inner (flags : Flags)

/-- Switches after the question mark of a group. -/
def groupSwitches (flags : Flags) (first : Char) : Parse SwitchScope := do
  let bound := (← get).rest.length + 1
  let (on, stop) ← if first = '-' then pure ([], '-')
    else switches [')', '-', ':'] first bound
  if on.contains .ascii && on.contains .unicode then fail
  if stop = ')' then
    modify fun p => { p with flags := on.foldl (fun f s => f.turn true s) p.flags }
    return .whole
  if on.contains .template then fail
  let off ← if stop = '-' then
      match ← take with
      | some (.plain c) => do
        let (off, _) ← switches [':'] c bound
        pure off
      | _ => fail
    else pure []
  if off.any fun s => s = .ascii || s = .unicode || s = .template || on.contains s then fail
  return .inner (flags.apply on off)

/-- The bounds of a repetition whose opening brace has been read; none if the brace stands
for itself. -/
def braceBounds : Parse (Option (Nat × Option Nat)) := do
  let start ← get
  if (← peek) = some (.plain '}') then return none
  let bound := start.rest.length
  let low ← takeWhilePlain bound Char.isDigit
  let high ← if ← skip ',' then takeWhilePlain bound Char.isDigit else pure low
  if !(← skip '}') then
    set start
    return none
  let least := decimalNumber low
  if numberLimit ≤ least then throw .repetitionTooLarge
  if high.isEmpty then return some (least, none)
  let most := decimalNumber high
  if numberLimit ≤ most then throw .repetitionTooLarge
  if most < least then fail
  return some (least, some most)

/-- The bounds that a repetition sign gives. -/
def repetition (sign : Char) : Parse (Option (Nat × Option Nat)) := do
  match sign with
  | '?' => return some (0, some 1)
  | '*' => return some (0, none)
  | '+' => return some (1, none)
  | _ => braceBounds

/-- The sign that may follow a repetition. -/
def greediness : Parse Greed := do
  if ← skip '?' then return .lazy
  if ← skip '+' then return .possessive
  return .greedy

/-- Repeats the last item. Anchors and repetitions are not repeated. -/
def repeatLast (least : Nat) (most : Option Nat) : List Node → Parse (List Node)
  | [] => fail
  | .anchor _ :: _ | .repeated .. :: _ => fail
  | item :: before => do
    return .repeated (← greediness) least most item :: before

/-- Skips a comment of the verbose layout. The bound is the number of tokens. -/
def skipLine : Nat → Parse Unit
  | 0 => return
  | bound + 1 => do
    match ← take with
    | none | some (.plain '\n') => return
    | _ => skipLine bound

def isLayoutBlank (c : Char) : Bool := c = ' ' || (9 ≤ c.toNat && c.toNat ≤ 13)

/-- Characters that are signs of patterns where an item may begin. -/
def isSign (c : Char) : Bool := "\\[\x7b()*+?^$|.".toList.contains c

/-- What an opening parenthesis turned out to begin. -/
inductive Parenthesis where
  | item (node : Node)
  | comment
  /-- Switches of the whole pattern, which stand before all its items. -/
  | switches
  deriving Inhabited

mutual

/-- Branches with bars between them. At the top the flags of the whole pattern hold. -/
def branches (top : Bool) (flags : Flags) (first : Bool) : Nat → Parse (List Node)
  | 0 => fail
  | bound + 1 => do
    let whole := (← get).flags
    let flags := if top then whole else flags
    let items ← sequence flags (top && first) [] bound
    if ← skip '|' then return .chain items :: (← branches top flags false bound)
    else return [.chain items]

/-- Branches as one pattern. -/
def alternatives (top : Bool) (flags : Flags) : Nat → Parse Node
  | 0 => fail
  | bound + 1 => do
    match ← branches top flags true bound with
    | [branch] => return branch
    | several => return .either several

/-- Items one after the other, up to a bar or the end of the group. The items read so far
are in reverse order. -/
def sequence (flags : Flags) (first : Bool) (done : List Node) : Nat → Parse (List Node)
  | 0 => fail
  | bound + 1 => do
    match ← peek with
    | none | some (.plain '|') | some (.plain ')') => return done.reverse
    | some (.escaped c) =>
      let _ ← take
      sequence flags first ((← escape flags c) :: done) bound
    | some (.plain c) =>
      let _ ← take
      if flags.verbose && isLayoutBlank c then sequence flags first done bound
      else if flags.verbose && c = '#' then
        skipLine bound
        sequence flags first done bound
      else if !isSign c then
        sequence flags first (.one (.single flags.folding c) :: done) bound
      else
        match c with
        | '[' => sequence flags first ((← charSet flags) :: done) bound
        | '.' =>
          let set : CharSet := ⟨true, if flags.dotAll then [] else [.char '\n'], .exact⟩
          sequence flags first (.one set :: done) bound
        | '^' =>
          let a : Anchor := if flags.multiline then .lineStart else .textStart
          sequence flags first (.anchor a :: done) bound
        | '$' =>
          let a : Anchor := if flags.multiline then .lineEnd else .lastEnd
          sequence flags first (.anchor a :: done) bound
        | '(' =>
          match ← parenthesis flags bound with
          | .item node => sequence flags first (node :: done) bound
          | .comment => sequence flags first done bound
          | .switches =>
            let switched := (← get).flags
            if first && done.isEmpty then sequence switched first done bound else fail
        | sign =>
          match ← repetition sign with
          | none => sequence flags first (.one (.single flags.folding sign) :: done) bound
          | some (least, most) =>
            sequence flags first (← repeatLast least most done) bound

/-- What follows an opening parenthesis up to its partner. -/
def parenthesis (flags : Flags) : Nat → Parse Parenthesis
  | 0 => fail
  | bound + 1 => do
    if !(← skip '?') then
      let number ← openGroup none
      let body ← alternatives false flags bound
      demand ')'
      closeGroup number body
      return .item (.capture number body)
    match ← take with
    | some (.plain ':') =>
      let body ← alternatives false flags bound
      demand ')'
      return .item (.group body)
    | some (.plain '>') =>
      let body ← alternatives false flags bound
      demand ')'
      return .item (.atomic body)
    | some (.plain '#') =>
      let _ ← takeUntil ')' bound
      return .comment
    | some (.plain '=') => return .item (← lookAhead flags false bound)
    | some (.plain '!') => return .item (← lookAhead flags true bound)
    | some (.plain '<') =>
      match ← take with
      | some (.plain '=') => return .item (← lookBehind flags false bound)
      | some (.plain '!') => return .item (← lookBehind flags true bound)
      | _ => fail
    | some (.plain 'P') =>
      if ← skip '<' then
        let name ← identifierUntil '>'
        let number ← openGroup (some name)
        let body ← alternatives false flags bound
        demand ')'
        closeGroup number body
        return .item (.capture number body)
      else if ← skip '=' then
        let name ← identifierUntil ')'
        return .item (← reference flags (← numberOfName name))
      else fail
    | some (.plain '(') =>
      let number ← conditionGroup
      let yes ← sequence flags false [] bound
      let no ← if ← skip '|' then sequence flags false [] bound else pure []
      demand ')'
      return .item (.conditional number (.chain yes) (.chain no))
    | some (.plain c) =>
      match ← groupSwitches flags c with
      | .whole => return .switches
      | .inner inner =>
        let body ← alternatives false inner bound
        demand ')'
        return .item (.group body)
    | _ => fail

def lookAhead (flags : Flags) (negated : Bool) : Nat → Parse Node
  | 0 => fail
  | bound + 1 => do
    let body ← alternatives false flags bound
    demand ')'
    return .look true negated 0 body

def lookBehind (flags : Flags) (negated : Bool) : Nat → Parse Node
  | 0 => fail
  | bound + 1 => do
    let outer := (← get).behind
    modify fun p => { p with behind := some (outer.getD p.next) }
    let body ← alternatives false flags bound
    modify fun p => { p with behind := outer }
    demand ')'
    let (low, high) := body.width
    if low = high then return .look false negated low body else fail

end

/-- Reads a whole pattern. -/
def whole (bound : Nat) : Parse Node := do
  let node ← alternatives true {} bound
  let p ← get
  if p.flags.ascii && p.flags.unicode then throw .conflictingFlags
  if !p.rest.isEmpty then fail
  if p.asked.any (p.next ≤ ·) then fail
  return node

def read (s : String) : Except ReadError Node :=
  match tokens? s.toList with
  | none => .error .malformed
  | some tokens => (whole (4 * tokens.length + 8)).run' { rest := tokens }

end BrowserSteps.Pattern
