import BrowserSteps.Decimal.Shortest

/-!
JSON values. Whole numbers are exact and unbounded; a number written with a point or an
exponent is a binary64 number. Members of an object keep the order in which their keys
first appeared. A string need not be a text: half of a surrogate pair can stand in it alone.
-/

namespace BrowserSteps

/-- What strings are made of: characters, and surrogates without a partner. -/
inductive Json.Piece where
  | char (c : Char)
  | half (code : Nat)
  deriving DecidableEq, Repr

inductive Json where
  | null
  | bool (value : Bool)
  | int (value : Int)
  | float (value : Float)
  | str (value : String)
  /-- A string that is no text, since a surrogate in it has no partner. -/
  | unpaired (pieces : List Json.Piece)
  | arr (items : List Json)
  | obj (members : List (String × Json))
  deriving Inhabited, BEq

namespace Json

/-- The character that a piece is, if it is one. -/
def Piece.char? : Piece → Option Char
  | .char c => some c
  | .half _ => none

/-- The text that pieces make up, if they do. -/
def text? (pieces : List Piece) : Option String := (pieces.mapM Piece.char?).map String.ofList

/-- Pieces as they are shown, with the replacement character for each surrogate. -/
def shown (pieces : List Piece) : String :=
  String.ofList (pieces.map fun piece => piece.char?.getD '\ufffd')

/-- The string of some pieces. -/
def ofPieces (pieces : List Piece) : Json :=
  match text? pieces with
  | some s => .str s
  | none => .unpaired pieces

/-- The value of a member. -/
def get? (key : String) (members : List (String × Json)) : Option Json := members.lookup key

end Json

end BrowserSteps
