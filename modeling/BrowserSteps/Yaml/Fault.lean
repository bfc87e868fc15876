import BrowserSteps.Text.Numeral
import BrowserSteps.Text.Quoted

/-!
What can be wrong with a YAML text. A problem of form has a place; a value that cannot be
built has none, and neither has a character that no YAML text may contain.
-/

namespace BrowserSteps.Yaml

/-- Line and column, both counted from zero. -/
structure Place where
  line : Nat := 0
  column : Nat := 0
  deriving DecidableEq, Repr, Inhabited

/-- Problems of form. -/
inductive Problem where
  | noTokenStartsHere
  | keyWithoutColon
  | entryNotAllowed
  | keyNotAllowed
  | valueNotAllowed
  | malformedDirective
  | malformedAnchor
  | malformedTag
  | malformedUri
  | malformedBlockHeader
  | unclosedQuote
  | separatorInQuote
  | unknownEscape
  | malformedEscape
  | noDocumentStart
  | contentAfterDocumentEnd
  | repeatedDirective
  | incompatibleVersion
  | undefinedHandle
  | noContent
  | noBlockEnd
  | noFlowEnd
  | undefinedAlias
  | severalDocuments
  | duplicateKey
  | unhashableKey
  | unknownTag
  | wrongKind
  | badMerge
  | badTimestamp
  | badBinary
  deriving DecidableEq, Repr

/-- What makes a date or a time of day impossible. -/
inductive DateFault where
  | year (year : Nat)
  | month
  | day
  | hour
  | minute
  | second
  deriving DecidableEq, Repr

/-- Values that are well formed and yet cannot be built. -/
inductive ValueFault where
  | longNumber (digits : Nat)
  | badInteger (base : Nat) (text : String)
  | badFloat (text : String)
  | emptyNumber
  | badTruth (word : String)
  | badDate (fault : DateFault)
  | dateRange
  /-- A mapping has a key that contains a collection of this kind. -/
  | unhashable (kind : String)
  | repeatedKey
  | unknownVersion (major minor : Nat)
  | badCharacter (code : Nat)
  | recursive
  deriving DecidableEq, Repr

inductive Fault where
  | unprintable
  | form (problem : Problem) (place : Place)
  | value (fault : ValueFault)
  deriving DecidableEq, Repr

/-- The place of a fault, if it has one. -/
def Fault.place? : Fault → Option Place
  | .form _ place => some place
  | _ => none

def DateFault.message : DateFault → String
  | .year number => "year " ++ toString number ++ " is out of range"
  | .month => "month must be in 1..12"
  | .day => "day is out of range for month"
  | .hour => "hour must be in 0..23"
  | .minute => "minute must be in 0..59"
  | .second => "second must be in 0..59"

/-- What is said of a value that cannot be built. -/
def ValueFault.message : ValueFault → String
  | .longNumber digits => Text.longNumberMessage digits
  | .badInteger base text =>
    "invalid literal for int() with base " ++ toString base ++ ": " ++ Text.quoted text
  | .badFloat text => "could not convert string to float: " ++ Text.quoted text
  | .emptyNumber => "string index out of range"
  | .badTruth word => Text.quoted word
  | .badDate fault => fault.message
  | .dateRange => "date value out of range"
  | .unhashable kind => "unhashable type: '" ++ kind ++ "'"
  | .repeatedKey => ""
  | .unknownVersion major minor => "(" ++ toString major ++ ", " ++ toString minor ++ ")"
  | .badCharacter code =>
    if code < Nat.pow 2 31 then "chr() arg not in range(0x110000)"
    else "Python int too large to convert to C int"
  | .recursive => "maximum recursion depth exceeded"

end BrowserSteps.Yaml
