import BrowserSteps.Pattern.Basic

/-!
Matching. A pattern tries its ways in a fixed order and goes on with what follows; the
first way that works to the end wins. A repetition whose last round took nothing tries no
further round.
-/

namespace BrowserSteps.Pattern

/-- A position in a text, and what the groups have taken so far. -/
structure Cursor where
  index : Nat := 0
  /-- The characters before the position, the nearest first. -/
  before : List Char := []
  after : List Char
  groups : List (Nat × List Char) := []
  deriving DecidableEq, Repr, Inhabited

namespace Cursor

/-- Moves over one character. -/
def next? (s : Cursor) : Option (Char × Cursor) :=
  match s.after with
  | [] => none
  | c :: rest => some (c, { s with index := s.index + 1, before := c :: s.before, after := rest })

/-- Moves back over a number of characters. -/
def back? (s : Cursor) : Nat → Option Cursor
  | 0 => some s
  | n + 1 =>
    match s.before with
    | [] => none
    | c :: rest =>
      { s with index := s.index - 1, before := rest, after := c :: s.after }.back? n

/-- The characters between this position and a later one. -/
def taken (s later : Cursor) : List Char := s.after.take (later.index - s.index)

end Cursor

/-- What is tried after a match; it may refuse. -/
abbrev Rest := Cursor → Option Cursor

def Anchor.holds (s : Cursor) : Anchor → Bool
  | .textStart => s.before.isEmpty
  | .lineStart => s.before.isEmpty || s.before.head? = some '\n'
  | .textEnd => s.after.isEmpty
  | .lineEnd => s.after.isEmpty || s.after.head? = some '\n'
  | .lastEnd => s.after.isEmpty || s.after = ['\n']
  | .wordEdge negated ascii =>
    let isWord (c : Option Char) : Bool := c.any (Category.contains ascii · .word)
    !(s.before.isEmpty && s.after.isEmpty) &&
      ((isWord s.before.head? != isWord s.after.head?) != negated)

/-- Takes a given text again. -/
def takeText (same : Char → Char → Bool) : List Char → Cursor → Option Cursor
  | [], s => some s
  | c :: rest, s =>
    match s.next? with
    | some (d, s) => if same c d then takeText same rest s else none
    | none => none

/-- Whether two characters of a reference are the same. -/
def Folding.sameText (f : Folding) (c d : Char) : Bool :=
  match f with
  | .exact => c = d
  | .ascii => c.toLower = d.toLower
  | .full => Text.lowerCase c = Text.lowerCase d

/-- Whether another round is allowed. -/
def roundAllowed (count : Nat) (most : Option Nat) : Bool := most.all (count < ·)

/-- A repetition that takes as many rounds as it can. `last` is where the previous optional
round began. The bound is at least the number of rounds. -/
def greedyRounds (round : Cursor → Rest → Option Cursor) (least : Nat) (most : Option Nat)
    (rest : Rest) : Nat → Nat → Option Nat → Cursor → Option Cursor
  | 0, _, _, s => rest s
  | bound + 1, count, last, s =>
    if count < least then
      round s (greedyRounds round least most rest bound (count + 1) last)
    else if roundAllowed count most && last ≠ some s.index then
      match round s (greedyRounds round least most rest bound (count + 1) (some s.index)) with
      | some found => some found
      | none => rest s
    else rest s

/-- A repetition that takes as few rounds as it can. -/
def lazyRounds (round : Cursor → Rest → Option Cursor) (least : Nat) (most : Option Nat)
    (rest : Rest) : Nat → Nat → Option Nat → Cursor → Option Cursor
  | 0, _, _, s => rest s
  | bound + 1, count, last, s =>
    if count < least then
      round s (lazyRounds round least most rest bound (count + 1) last)
    else
      match rest s with
      | some found => some found
      | none =>
        if roundAllowed count most && last ≠ some s.index then
          round s (lazyRounds round least most rest bound (count + 1) (some s.index))
        else none

/-- A repetition that never gives a round back. -/
def possessiveRounds (round : Cursor → Rest → Option Cursor) (least : Nat) (most : Option Nat) :
    Nat → Nat → Option Nat → Cursor → Option Cursor
  | 0, _, _, s => some s
  | bound + 1, count, last, s =>
    if count < least then
      match round s some with
      | some s => possessiveRounds round least most bound (count + 1) last s
      | none => none
    else if roundAllowed count most && last ≠ some s.index then
      match round s some with
      | some after => possessiveRounds round least most bound (count + 1) (some s.index) after
      | none => some s
    else some s

mutual

/-- Matches a pattern at a position and goes on. -/
def Node.run : Node → Cursor → Rest → Option Cursor
  | .one set, s, rest =>
    match s.next? with
    | some (c, s) => if set.contains c then rest s else none
    | none => none
  | .anchor a, s, rest => if a.holds s then rest s else none
  | .capture number body, s, rest =>
    body.run s fun later => rest { later with groups := (number, s.taken later) :: later.groups }
  | .group body, s, rest => body.run s rest
  | .chain items, s, rest => runChain items s rest
  | .either branches, s, rest => runEither branches s rest
  | .repeated greed least most body, s, rest =>
    let bound := least + s.after.length + 2
    match greed with
    | .greedy => greedyRounds (fun s rest => body.run s rest) least most rest bound 0 none s
    | .lazy => lazyRounds (fun s rest => body.run s rest) least most rest bound 0 none s
    | .possessive =>
      match possessiveRounds (fun s rest => body.run s rest) least most bound 0 none s with
      | some s => rest s
      | none => none
  | .reference number folding _ _, s, rest =>
    match s.groups.lookup number with
    | some text => (takeText folding.sameText text s).bind rest
    | none => none
  | .look ahead negated width body, s, rest =>
    let start := if ahead then some s else s.back? width
    let found := start.bind fun start => body.run start some
    match found, negated with
    | some later, false => rest { s with groups := later.groups }
    | none, true => rest s
    | _, _ => none
  | .atomic body, s, rest =>
    match body.run s some with
    | some later => rest later
    | none => none
  | .conditional number yes no, s, rest =>
    if (s.groups.lookup number).isSome then yes.run s rest else no.run s rest

/-- Matches patterns one after the other. -/
def runChain : List Node → Cursor → Rest → Option Cursor
  | [], s, rest => rest s
  | item :: items, s, rest => item.run s fun later => runChain items later rest

/-- Matches the first of several patterns that works. -/
def runEither : List Node → Cursor → Rest → Option Cursor
  | [], _, _ => none
  | branch :: branches, s, rest =>
    match branch.run s rest with
    | some found => some found
    | none => runEither branches s rest

end

/-- Whether a pattern matches a text as a whole. -/
def Node.matchesAll (p : Node) (text : List Char) : Bool :=
  (p.run { after := text } fun s => if s.after.isEmpty then some s else none).isSome

/-- The first match at or after a position: where it begins and where it ends. A match at
the very position may be required to take something. -/
def Node.search (p : Node) (s : Cursor) (advance : Bool) : Option (Cursor × Cursor) :=
  go s.after s
where
  accept (start : Cursor) : Rest := fun later =>
    if advance && start.index = s.index && later.index = start.index then none else some later
  go : List Char → Cursor → Option (Cursor × Cursor)
    | [], start => (p.run start (accept start)).map (start, ·)
    | _ :: rest, start =>
      match p.run start (accept start) with
      | some later => some (start, later)
      | none =>
        match start.next? with
        | some (_, start) => go rest start
        | none => none

/-- Whether a pattern matches anywhere in a text. -/
def Node.occursIn (p : Node) (text : List Char) : Bool := (p.search { after := text } false).isSome

end BrowserSteps.Pattern
