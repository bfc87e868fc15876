import BrowserSteps.Text.Blank
import BrowserSteps.Text.CaseFold
import BrowserSteps.Text.Digit
import BrowserSteps.Text.Word

/-!
Patterns for texts: sets of characters, anchors, groups, repetitions, references to groups
and looks around.
-/

namespace BrowserSteps.Pattern

/-- How far the case of letters is ignored. -/
inductive Folding where
  | exact
  | ascii
  | full
  deriving DecidableEq, Repr, Inhabited

/-- Classes of characters that have an escape of their own. -/
inductive Category where
  | digit
  | blank
  | word
  deriving DecidableEq, Repr, Inhabited

/-- Members of a class; optionally of its ASCII part only. -/
def Category.contains (ascii : Bool) (c : Char) : Category → Bool
  | .digit => if ascii then c.isDigit else Text.isDecimal c
  | .blank =>
    if ascii then c = ' ' || (9 ≤ c.toNat && c.toNat ≤ 13) else Text.isBlank c
  | .word => if ascii then c.isAlphanum || c = '_' else Text.isWord c

/-- An item of a set of characters. -/
inductive Item where
  | char (c : Char)
  | range (low high : Char)
  | category (kind : Category) (negated ascii : Bool)
  deriving DecidableEq, Repr, Inhabited

/-- The representative that folding compares. -/
def Folding.fold (f : Folding) (c : Char) : Char :=
  match f with
  | .exact => c
  | .ascii => c.toLower
  | .full => Text.foldCase c

/-- The characters that folding takes for the same. -/
def Folding.variants (f : Folding) (c : Char) : List Char :=
  match f with
  | .exact => [c]
  | .ascii => [c, c.toLower, c.toUpper]
  | .full => Text.caseVariants c

def Item.contains (f : Folding) (c : Char) : Item → Bool
  | .char d => f.fold c = f.fold d
  | .range low high => (f.variants c).any fun v => low ≤ v && v ≤ high
  | .category kind negated ascii => kind.contains ascii c != negated

/-- A set of characters: the items, or all but the items. -/
structure CharSet where
  negated : Bool := false
  items : List Item
  folding : Folding := .exact
  deriving DecidableEq, Repr, Inhabited

def CharSet.contains (set : CharSet) (c : Char) : Bool :=
  set.items.any (Item.contains set.folding c) != set.negated

/-- The set of one character. -/
def CharSet.single (f : Folding) (c : Char) : CharSet := ⟨false, [.char c], f⟩

/-- Conditions on a position. -/
inductive Anchor where
  | textStart
  | lineStart
  | textEnd
  | lineEnd
  /-- The end, or before a line feed at the end. -/
  | lastEnd
  | wordEdge (negated ascii : Bool)
  deriving DecidableEq, Repr, Inhabited

/-- How a repetition goes on: as long as it can, as short as it can, or without ever giving
back what it took. -/
inductive Greed where
  | greedy
  | lazy
  | possessive
  deriving DecidableEq, Repr, Inhabited

/-- A pattern. -/
inductive Node where
  | one (set : CharSet)
  | anchor (a : Anchor)
  | capture (number : Nat) (body : Node)
  /-- A group without a number. -/
  | group (body : Node)
  | chain (items : List Node)
  | either (branches : List Node)
  | repeated (greed : Greed) (least : Nat) (most : Option Nat) (body : Node)
  /-- The text that a group took last; the bounds are those of its width. -/
  | reference (number : Nat) (folding : Folding) (shortest longest : Nat)
  | look (ahead negated : Bool) (width : Nat) (body : Node)
  /-- A group that never gives back what it took. -/
  | atomic (body : Node)
  | conditional (number : Nat) (yes no : Node)
  deriving Inhabited, Repr

/-- A width beyond all bounds. -/
def unbounded : Nat := Nat.pow 2 64

mutual

/-- The least and the greatest number of characters that a pattern takes. -/
def Node.width : Node → Nat × Nat
  | .one _ => (1, 1)
  | .anchor _ | .look .. => (0, 0)
  | .capture _ body | .group body | .atomic body => body.width
  | .chain items => chainWidth items
  | .either branches => eitherWidth branches
  | .repeated _ least most body =>
    let (low, high) := body.width
    (min (low * least) unbounded,
      match most with
      | some most => min (high * most) unbounded
      | none => if high = 0 then 0 else unbounded)
  | .reference _ _ shortest longest => (shortest, longest)
  | .conditional _ yes no =>
    let (low, high) := yes.width
    let (low', high') := no.width
    (min low low', max high high')

def chainWidth : List Node → Nat × Nat
  | [] => (0, 0)
  | item :: rest =>
    let (low, high) := item.width
    let (low', high') := chainWidth rest
    (min (low + low') unbounded, min (high + high') unbounded)

def eitherWidth : List Node → Nat × Nat
  | [] => (unbounded, 0)
  | branch :: rest =>
    let (low, high) := branch.width
    let (low', high') := eitherWidth rest
    (min low low', max high high')

end

end BrowserSteps.Pattern
