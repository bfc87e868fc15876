import BrowserSteps.Datum.Basic
import BrowserSteps.Decimal.Shortest
import BrowserSteps.Text.Numeral
import BrowserSteps.Text.Quoted

/-!
Data as plain text. A text stands for itself on its own and is quoted inside other data; what
holds itself is left out inside of itself. A whole number with too many digits cannot be
written.
-/

namespace BrowserSteps.Datum

/-- The names of the two truth values and of nothing. -/
private def truthText (b : Bool) : String := if b then "True" else "False"

/-- A byte between quotation marks. -/
def quoteByte (mark : Char) (b : UInt8) : List Char :=
  let c := Char.ofNat b.toNat
  if c = mark || c = '\\' then ['\\', c]
  else if c = '\n' then ['\\', 'n']
  else if c = '\r' then ['\\', 'r']
  else if c = '\t' then ['\\', 't']
  else if 0x20 ≤ b.toNat && b.toNat < 0x7f then [c]
  else '\\' :: 'x' :: Text.hexPadded 2 b.toNat

/-- Bytes in quotation marks. -/
def quotedBytes (bytes : Text.Bytes) : String :=
  let mark := Text.quoteMark (bytes.map fun b => Char.ofNat b.toNat)
  "b" ++ String.ofList (mark :: bytes.flatMap (quoteByte mark) ++ [mark])

/-- Numbers with commas between them. -/
private def arguments (numbers : List Nat) : String := ", ".intercalate (numbers.map toString)

/-- A date as part of other data. -/
def dateParts (d : Date) : String := "datetime.date(" ++ arguments [d.year, d.month, d.day] ++ ")"

/-- A point in time as part of other data, without seconds and microseconds that are
zero. -/
def stampParts (t : DateTime) : String :=
  let d := t.date
  let c := t.timeOfDay
  let fine :=
    if c.micro ≠ 0 then [c.second, c.micro] else if c.second ≠ 0 then [c.second] else []
  "datetime.datetime(" ++ arguments ([d.year, d.month, d.day, c.hour, c.minute] ++ fine) ++ ")"

mutual

/-- A datum inside other data. -/
def inner : Datum → String
  | .null => "None"
  | .bool b => truthText b
  | .int n => toString n
  | .float x => Decimal.shortestText .plain x
  | .text s => Text.quoted s
  | .binary bytes => quotedBytes bytes
  | .date d => dateParts d
  | .stamp t => stampParts t
  | .list items => "[" ++ ", ".intercalate (innerItems items) ++ "]"
  | .fixed [item] => "(" ++ item.inner ++ ",)"
  | .fixed items => "(" ++ ", ".intercalate (innerItems items) ++ ")"
  | .map pairs => "\x7b" ++ ", ".intercalate (innerPairs pairs) ++ "\x7d"
  | .set [] => "set()"
  | .set items => "\x7b" ++ ", ".intercalate (innerItems items) ++ "\x7d"
  | .enclosing isMapping => if isMapping then "\x7b...\x7d" else "[...]"

def innerItems : List Datum → List String
  | [] => []
  | item :: rest => item.inner :: innerItems rest

def innerPairs : List (Datum × Datum) → List String
  | [] => []
  | (key, value) :: rest => (key.inner ++ ": " ++ value.inner) :: innerPairs rest

end

/-- A datum on its own. -/
def display : Datum → String
  | .text s => s
  | .date d => (DateTime.ofParts d ⟨0, 0, 0, 0⟩).isoText " " |>.toList.take 10 |> String.ofList
  | .stamp t => t.isoText " "
  | other => other.inner

mutual

/-- Whether a whole number inside a datum has too many digits to be written. -/
def isUnwritable : Datum → Bool
  | .int n => Text.isLongNumber n
  | .list items | .fixed items | .set items => anyUnwritable items
  | .map pairs => anyPairUnwritable pairs
  | _ => false

def anyUnwritable : List Datum → Bool
  | [] => false
  | item :: rest => isUnwritable item || anyUnwritable rest

def anyPairUnwritable : List (Datum × Datum) → Bool
  | [] => false
  | (key, value) :: rest => isUnwritable key || isUnwritable value || anyPairUnwritable rest

end

end BrowserSteps.Datum
