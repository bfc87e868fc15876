import BrowserSteps.Json.Basic
import BrowserSteps.Text.Numeral

/-!
Values of single fields of a step. Whole numbers are also read from truth values, from
binary64 numbers without a fraction and from texts; truth values also from zero and one
and from a few words. A string that is no text is kept as it is shown where a text is due,
and it is no number and no truth value.
-/

namespace BrowserSteps.Field

/-- Why a value does not fit its field. -/
inductive Fault where
  | notText
  /-- A string with a surrogate that has no partner. -/
  | unpaired
  | notInteger
  | fractional
  | unreadableInteger
  | oversizedInteger
  | notFinite
  | notTruth
  | unreadableTruth
  | notChoice
  | notObject
  deriving DecidableEq, Repr

/-- Texts only. -/
def text : Json → Except Fault String
  | .str s => .ok s
  | .unpaired pieces => .ok (Json.shown pieces)
  | _ => .error .notText

/-- Texts, and null for the empty text. -/
def textOrNull : Json → Except Fault String
  | .null => .ok ""
  | value => text value

/-- Texts, and null for none. -/
def optionalText : Json → Except Fault (Option String)
  | .null => .ok none
  | value => (text value).map some

/-- Drops a point and the zeros after it at the end of a numeral. -/
def dropZeroFraction (s : List Char) : List Char :=
  let whole := s.takeWhile (· ≠ '.')
  if (s.drop whole.length).tail.all (· = '0') then whole else s

/-- ASCII digits with single underscores between them. -/
def plainDigits? : List Char → Option (List Nat)
  | [] => none
  | [c] => if c.isDigit then some [c.toNat - '0'.toNat] else none
  | c :: '_' :: rest =>
    if c.isDigit then (plainDigits? rest).map ((c.toNat - '0'.toNat) :: ·) else none
  | c :: rest =>
    if c.isDigit then (plainDigits? rest).map ((c.toNat - '0'.toNat) :: ·) else none

/-- A whole number in a text: white space around, a sign, ASCII digits with single
underscores between them, and a fraction of zeros. -/
def integerOfText (s : String) : Except Fault Int :=
  if Text.digitLimit < s.toList.length then .error .oversizedInteger
  else
    let (negative, body) := Text.splitSign (Text.trimBy Text.isWhite s.toList)
    match plainDigits? (dropZeroFraction body) with
    | some digits =>
      let n : Int := Text.ofDigits digits
      .ok (if negative then -n else n)
    | none => .error .unreadableInteger

/-- Whole numbers beyond 64 bits come from texts and whole numbers only. -/
def integerOfFloat (x : Float) : Except Fault Int :=
  match Decimal.Binary.ofFloat x with
  | .finite d =>
    match d.toInt? with
    | some n => if -Int.pow 2 63 ≤ n ∧ n < Int.pow 2 63 then .ok n else .error .oversizedInteger
    | none => .error .fractional
  | _ => .error .notFinite

def integer : Json → Except Fault Int
  | .int n => .ok n
  | .bool b => .ok (if b then 1 else 0)
  | .float x => integerOfFloat x
  | .str s => integerOfText s
  | .unpaired _ => .error .unpaired
  | _ => .error .notInteger

/-- The words for true. -/
def truthWords : List String := ["1", "true", "t", "yes", "y", "on"]

/-- The words for false. -/
def falsehoodWords : List String := ["0", "false", "f", "no", "n", "off"]

def truth : Json → Except Fault Bool
  | .bool b => .ok b
  | .int n =>
    if n = 0 then .ok false else if n = 1 then .ok true else .error .unreadableTruth
  | .float x =>
    if x == 0.0 then .ok false else if x == 1.0 then .ok true else .error .notTruth
  | .str s =>
    let word := String.ofList (s.toList.map Char.toLower)
    if truthWords.contains word then .ok true
    else if falsehoodWords.contains word then .ok false
    else .error .unreadableTruth
  | .unpaired _ => .error .unpaired
  | _ => .error .notTruth

/-- One of a few choices: null for a choice of its own, a text through its resolution. -/
def choice {α : Type} (absent : α) (resolve : String → α) : Json → Except Fault α
  | .null => .ok absent
  | .str s => .ok (resolve s)
  | .unpaired pieces => .ok (resolve (Json.shown pieces))
  | _ => .error .notChoice

end BrowserSteps.Field
