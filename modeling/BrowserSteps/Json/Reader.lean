import BrowserSteps.Json.Basic
import BrowserSteps.Keyed
import BrowserSteps.Text.Numeral

/-!
Reading JSON texts. Blanks are the space, the tab, LF and CR. Besides the numbers of the
standard the words `NaN`, `Infinity` and `-Infinity` are read. Strings hold no raw control
characters; an escaped surrogate may stand alone in them. A whole number beyond the digit
limit is refused with an error of its own.
-/

namespace BrowserSteps.Json

/-- Why a text is not read as JSON. -/
inductive ReadError where
  | malformed
  | longNumber (digits : Nat)
  deriving DecidableEq, Repr

/-- Blanks between tokens. -/
def isSpace (c : Char) : Bool := c = ' ' || c = '\t' || c = '\n' || c = '\r'

def skipSpace (s : List Char) : List Char := s.dropWhile isSpace

/-- The value of a hexadecimal digit. -/
def hexValue? (c : Char) : Option Nat :=
  if '0' ≤ c ∧ c ≤ '9' then some (c.toNat - '0'.toNat)
  else if 'a' ≤ c ∧ c ≤ 'f' then some (c.toNat - 'a'.toNat + 10)
  else if 'A' ≤ c ∧ c ≤ 'F' then some (c.toNat - 'A'.toNat + 10)
  else none

/-- Four hexadecimal digits. -/
def hexQuad? : List Char → Option (Nat × List Char)
  | a :: b :: c :: d :: rest => do
    let a ← hexValue? a
    let b ← hexValue? b
    let c ← hexValue? c
    let d ← hexValue? d
    return (((a * 16 + b) * 16 + c) * 16 + d, rest)
  | _ => none

def isHighSurrogate (n : Nat) : Bool := 0xd800 ≤ n && n < 0xdc00

def isLowSurrogate (n : Nat) : Bool := 0xdc00 ≤ n && n < 0xe000

/-- What a numeric escape stands for that is no part of a pair. -/
def pieceOfUnit (n : Nat) : Piece :=
  if isHighSurrogate n || isLowSurrogate n then .half n else .char (Char.ofNat n)

/-- The character that a surrogate pair encodes. -/
def charOfPair (high low : Nat) : Char :=
  Char.ofNat (0x10000 + (high - 0xd800) * 0x400 + (low - 0xdc00))

/-- The low half of a surrogate pair, if an escape of one follows. -/
def lowHalf? : List Char → Option (Nat × List Char)
  | '\\' :: 'u' :: rest =>
    match hexQuad? rest with
    | some (n, after) => if isLowSurrogate n then some (n, after) else none
    | none => none
  | _ => none

/-- The characters that a backslash and one letter stand for. -/
def shortEscape? (c : Char) : Option Char :=
  match c with
  | '"' => some '"'
  | '\\' => some '\\'
  | '/' => some '/'
  | 'b' => some '\x08'
  | 'f' => some '\x0c'
  | 'n' => some '\n'
  | 'r' => some '\r'
  | 't' => some '\t'
  | _ => none

/-- One character or escape of a string, and what follows it. -/
def stringPiece? : List Char → Option (Piece × List Char)
  | [] => none
  | '\\' :: 'u' :: rest =>
    match hexQuad? rest with
    | none => none
    | some (n, after) =>
      if isHighSurrogate n then
        match lowHalf? after with
        | some (low, after) => some (.char (charOfPair n low), after)
        | none => some (pieceOfUnit n, after)
      else some (pieceOfUnit n, after)
  | '\\' :: c :: rest => (shortEscape? c).map (.char ·, rest)
  | '\\' :: [] => none
  | c :: rest => if c.toNat < 0x20 then none else some (.char c, rest)

/-- The rest of a string up to its closing quotation mark. The bound is the number of
characters left. -/
def stringBody? : Nat → List Char → Option (List Piece × List Char)
  | 0, _ => none
  | _ + 1, '"' :: rest => some ([], rest)
  | bound + 1, s =>
    match stringPiece? s with
    | none => none
    | some (p, rest) => (stringBody? bound rest).map fun (ps, after) => (p :: ps, after)

/-- A string whose opening quotation mark has been read. -/
def readString (s : List Char) : Except ReadError (List Piece × List Char) :=
  match stringBody? (s.length + 1) s with
  | some read => .ok read
  | none => .error .malformed

/-- The number that ASCII digits write. -/
def digitsValue (digits : List Char) : Nat :=
  Text.ofDigits (digits.map fun c => c.toNat - '0'.toNat)

/-- Splits a fraction off: a point and at least one digit. -/
def splitFraction : List Char → List Char × List Char
  | '.' :: rest =>
    let digits := rest.takeWhile Char.isDigit
    if digits.isEmpty then ([], '.' :: rest) else (digits, rest.drop digits.length)
  | rest => ([], rest)

/-- Splits an exponent off: its mark, an optional sign and at least one digit. -/
def splitExponent (s : List Char) : Option Int × List Char :=
  match s with
  | c :: rest =>
    if c = 'e' || c = 'E' then
      let (down, body) := Text.splitSign rest
      let digits := body.takeWhile Char.isDigit
      if digits.isEmpty then (none, s)
      else
        let n : Int := digitsValue digits
        (some (if down then -n else n), body.drop digits.length)
    else (none, s)
  | [] => (none, s)

/-- The digits before the point: a zero alone, or digits that start with no zero. -/
def splitWhole : List Char → List Char × List Char
  | '0' :: rest => (['0'], rest)
  | s => (s.takeWhile Char.isDigit, s.dropWhile Char.isDigit)

/-- A number whose minus sign, if any, has been read. -/
def readNumber (negative : Bool) (s : List Char) : Except ReadError (Json × List Char) :=
  let (whole, afterWhole) := splitWhole s
  if whole.isEmpty then .error .malformed
  else
    let (fraction, afterFraction) := splitFraction afterWhole
    let (exponent, rest) := splitExponent afterFraction
    if fraction.isEmpty && exponent.isNone then
      if Text.digitLimit < whole.length then .error (.longNumber whole.length)
      else
        let n : Int := digitsValue whole
        .ok (.int (if negative then -n else n), rest)
    else
      .ok (.float (Text.floatOfDecimal negative (digitsValue (whole ++ fraction))
        (exponent.getD 0 - (fraction.length : Nat))), rest)

/-- A value that is neither a string, an array nor an object. -/
def readAtom (s : List Char) : Except ReadError (Json × List Char) :=
  match s with
  | 'n' :: 'u' :: 'l' :: 'l' :: rest => .ok (.null, rest)
  | 't' :: 'r' :: 'u' :: 'e' :: rest => .ok (.bool true, rest)
  | 'f' :: 'a' :: 'l' :: 's' :: 'e' :: rest => .ok (.bool false, rest)
  | 'N' :: 'a' :: 'N' :: rest => .ok (.float (0.0 / 0.0), rest)
  | 'I' :: 'n' :: 'f' :: 'i' :: 'n' :: 'i' :: 't' :: 'y' :: rest => .ok (.float (1.0 / 0.0), rest)
  | '-' :: 'I' :: 'n' :: 'f' :: 'i' :: 'n' :: 'i' :: 't' :: 'y' :: rest =>
    .ok (.float (-(1.0 / 0.0)), rest)
  | '-' :: rest => readNumber true rest
  | rest => readNumber false rest

/-- The member of a key and a value, if the key is a text. -/
def member (key : List Piece) (value : Json) : List (String × Json) :=
  ((text? key).map (·, value)).toList

mutual

/-- One value. The bound is above twice the number of characters left, since every bracket takes a
reading for the value and one for what is inside. -/
def readValue : Nat → List Char → Except ReadError (Json × List Char)
  | 0, _ => .error .malformed
  | bound + 1, s =>
    match s with
    | '"' :: rest => (readString rest).map fun (pieces, after) => (ofPieces pieces, after)
    | '[' :: rest =>
      match skipSpace rest with
      | ']' :: after => .ok (.arr [], after)
      | inner => (readItems bound inner).map fun (items, after) => (.arr items, after)
    | '{' :: rest =>
      match skipSpace rest with
      | '}' :: after => .ok (.obj [], after)
      | inner =>
        (readMembers bound inner).map fun (pairs, after) => (.obj (Keyed.ofPairs pairs), after)
    | atom => readAtom atom

/-- The items of an array up to its closing bracket. -/
def readItems : Nat → List Char → Except ReadError (List Json × List Char)
  | 0, _ => .error .malformed
  | bound + 1, s => do
    let (item, after) ← readValue bound s
    match skipSpace after with
    | ']' :: rest => return ([item], rest)
    | ',' :: rest =>
      let (items, rest) ← readItems bound (skipSpace rest)
      return (item :: items, rest)
    | _ => .error .malformed

/-- The members of an object up to its closing brace. A key that is no text names nothing. -/
def readMembers : Nat → List Char → Except ReadError (List (String × Json) × List Char)
  | 0, _ => .error .malformed
  | bound + 1, s =>
    match s with
    | '"' :: rest => do
      let (key, after) ← readString rest
      match skipSpace after with
      | ':' :: after =>
        let (value, after) ← readValue bound (skipSpace after)
        match skipSpace after with
        | '}' :: rest => return (member key value, rest)
        | ',' :: rest =>
          let (members, rest) ← readMembers bound (skipSpace rest)
          return (member key value ++ members, rest)
        | _ => .error .malformed
      | _ => .error .malformed
    | _ => .error .malformed

end

/-- Reads a whole text as one value. -/
def read (text : String) : Except ReadError Json := do
  let s := text.toList
  let (value, rest) ← readValue (2 * s.length + 1) (skipSpace s)
  if (skipSpace rest).isEmpty then return value else .error .malformed

end BrowserSteps.Json
