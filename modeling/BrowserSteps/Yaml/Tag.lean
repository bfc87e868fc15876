import BrowserSteps.Yaml.Timestamp
import BrowserSteps.Yaml.Token

/-!
Tags, which say what kind of value a node is, and the tag of a plain scalar, which follows
from its text. The current version knows two words for truth values and writes octal
numbers with an `o`; the old one knows more words, takes a leading zero for octal, and has
numbers to the base sixty.
-/

namespace BrowserSteps.Yaml

inductive Tag where
  | null
  | bool
  | int
  | float
  | binary
  | timestamp
  | omap
  | pairs
  | set
  | str
  | seq
  | map
  | merge
  | value
  | other (uri : String)
  deriving DecidableEq, Repr

namespace Tag

/-- What the addresses of the standard tags begin with. -/
def standardUri : String := "tag:yaml.org,2002:"

/-- The standard tags by their names. -/
def standard : List (String × Tag) := [
  ("null", .null), ("bool", .bool), ("int", .int), ("float", .float), ("binary", .binary),
  ("timestamp", .timestamp), ("omap", .omap), ("pairs", .pairs), ("set", .set), ("str", .str),
  ("seq", .seq), ("map", .map), ("merge", .merge), ("value", .value)]

def ofUri (uri : String) : Tag :=
  ((standard.find? fun (name, _) => standardUri ++ name = uri).map (·.2)).getD (.other uri)

end Tag

namespace Resolution

def isSign (c : Char) : Bool := c = '+' || c = '-'

def isDigitOrBar (c : Char) : Bool := c.isDigit || c = '_'

/-- The text without a sign in front. -/
def unsigned : List Char → List Char
  | [] => []
  | c :: rest => if isSign c then rest else c :: rest

/-- Whether there is something, all of a class. -/
def isRun (p : Char → Bool) (s : List Char) : Bool := !s.isEmpty && s.all p

/-- Whether a text is an exponent, whose sign may be left out or not. -/
def isExponent (needsSign : Bool) : List Char → Bool
  | c :: rest =>
    (c = 'e' || c = 'E') && (!needsSign || (rest.head?.any isSign)) &&
      isRun Char.isDigit (unsigned rest)
  | [] => false

/-- Whether a text without a sign is a decimal with a point or an exponent. -/
def isDecimal (s : List Char) : Bool :=
  match s with
  | [] => false
  | c :: _ =>
    let rest := s.dropWhile isDigitOrBar
    c.isDigit &&
      match rest with
      | '.' :: more =>
        let tail := more.dropWhile isDigitOrBar
        tail.isEmpty || isExponent false tail
      | tail => isExponent false tail

/-- Whether a text is a fraction that begins with its point. -/
def isFraction : List Char → Bool
  | '.' :: rest =>
    let tail := rest.dropWhile isDigitOrBar
    tail.length < rest.length && (tail.isEmpty || isExponent true tail)
  | _ => false

/-- Whether a text is a colon with one or two digits below sixty, several times over. -/
def isSixties : List Char → Bool
  | ':' :: a :: b :: rest =>
    if b.isDigit then
      '0' ≤ a && a ≤ '5' && (rest.isEmpty || isSixties rest)
    else a.isDigit && isSixties (b :: rest)
  | [':', a] => a.isDigit
  | _ => false

/-- Whether a text is a number to the base sixty with a fraction. -/
def isSixtiesFraction (s : List Char) : Bool :=
  s.head?.any Char.isDigit &&
    (let tail := s.dropWhile isDigitOrBar
     let places := tail.takeWhile (· ≠ '.')
     let fraction := tail.drop places.length
     isSixties places && fraction.head? = some '.' && (fraction.drop 1).all isDigitOrBar)

def isFloat (version : Version) (s : List Char) : Bool :=
  let body := unsigned s
  isDecimal body || body ∈ [".inf", ".Inf", ".INF"].map String.toList ||
    s ∈ [".nan", ".NaN", ".NAN"].map String.toList ||
    (if version = .old then isFraction s || isSixtiesFraction body else isFraction body)

/-- Whether a text is a number with a marked base. -/
def isBased (s : List Char) : Bool :=
  match s with
  | '0' :: 'b' :: rest => isRun (fun c => c = '0' || c = '1' || c = '_') rest
  | '0' :: 'x' :: rest =>
    isRun (fun c => isDigitOrBar c || ('a' ≤ c ∧ c ≤ 'f') || ('A' ≤ c ∧ c ≤ 'F')) rest
  | _ => false

def isOctalDigit (c : Char) : Bool := ('0' ≤ c ∧ c ≤ '7') || c = '_'

/-- Whether a text without a sign is a whole number of the current version. -/
def isNewInt (body : List Char) : Bool :=
  isBased body || isRun isDigitOrBar body ||
    match body with
    | '0' :: 'o' :: rest => isRun isOctalDigit rest
    | _ => false

/-- Whether a text without a sign is a whole number of the old version. -/
def isOldInt (body : List Char) : Bool :=
  isBased body || isRun isOctalDigit body || body = ['0'] ||
    match body with
    | c :: rest =>
      '1' ≤ c && c ≤ '9' &&
        (let tail := rest.dropWhile isDigitOrBar
         tail.isEmpty || isSixties tail)
    | [] => false

/-- Whether a text is a whole number. None begins with an underscore. -/
def isInt (version : Version) (s : List Char) : Bool :=
  s.head? ≠ some '_' && (if version = .old then isOldInt (unsigned s) else isNewInt (unsigned s))

/-- Words for truth values. -/
def truthWords : List String := ["true", "True", "TRUE", "false", "False", "FALSE"]

/-- Further words for truth values in the old version. -/
def oldTruthWords : List String := [
  "y", "Y", "yes", "Yes", "YES", "n", "N", "no", "No", "NO", "on", "On", "ON", "off", "Off",
  "OFF"]

/-- Words for nothing. -/
def nullWords : List String := ["", "~", "null", "Null", "NULL"]

end Resolution

open Resolution in
/-- The tag of a plain scalar. -/
def Tag.ofPlain (version : Version) (text : String) : Tag :=
  let s := text.toList
  if text ∈ truthWords || (version = .old && text ∈ oldTruthWords) then .bool
  else if isFloat version s then .float
  else if isInt version s then .int
  else if text = "<<" then .merge
  else if text ∈ nullWords then .null
  else if Timestamp.isPlain s then .timestamp
  else if text = "=" then .value
  else .str

end BrowserSteps.Yaml
