import BrowserSteps.Yaml.Fault

/-!
Tokens of a YAML text. Besides what is written there are tokens for what indentation says:
the starts and ends of block collections.
-/

namespace BrowserSteps.Yaml

/-- A version of the format. -/
structure Version where
  major : Nat
  minor : Nat
  deriving DecidableEq, Repr

namespace Version

/-- The version of a text that names none. -/
def current : Version := ⟨1, 2⟩

/-- The version before, with more words for truth values and numbers to the base sixty. -/
def old : Version := ⟨1, 1⟩

/-- Whether a version is newer than the old one. -/
def isNew (v : Version) : Bool := 1 < v.major || (v.major = 1 && 1 < v.minor)

end Version

/-- Lines that say how a document is to be read. -/
inductive Directive where
  | version (version : Version)
  | handle (handle uri : String)
  | unknown
  deriving DecidableEq, Repr

/-- A tag as it is written: a handle, which a verbatim tag does not have, and the rest. -/
structure TagName where
  handle : Option String
  suffix : String
  deriving DecidableEq, Repr

inductive TokenKind where
  | directive (directive : Directive)
  | documentStart
  | documentEnd
  | streamEnd
  | blockSequenceStart
  | blockMappingStart
  | blockEnd
  | flowSequenceStart
  | flowSequenceEnd
  | flowMappingStart
  | flowMappingEnd
  | blockEntry
  | flowEntry
  | key
  | value
  | alias (name : String)
  | anchor (name : String)
  | tag (name : TagName)
  | scalar (text : String) (plain : Bool)
  deriving DecidableEq, Repr

structure Token where
  kind : TokenKind
  start : Place
  stop : Place
  deriving DecidableEq, Repr

/-- A token that takes no room. -/
def Token.mark (kind : TokenKind) (place : Place) : Token := ⟨kind, place, place⟩

end BrowserSteps.Yaml
