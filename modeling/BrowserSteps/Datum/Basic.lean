import BrowserSteps.Calendar
import BrowserSteps.Json.Basic
import BrowserSteps.Text.Utf8

/-!
Data of configuration and step files, and answers of scripts: JSON values, and beyond them
dates, points in time, bytes, fixed lists, sets and mappings whose keys are data of any kind.
A list or a mapping may hold itself.
-/

namespace BrowserSteps

inductive Datum where
  | null
  | bool (value : Bool)
  | int (value : Int)
  | float (value : Float)
  | text (value : String)
  | binary (value : Text.Bytes)
  | date (value : Date)
  | stamp (value : DateTime)
  | list (items : List Datum)
  /-- A list that cannot change, so that it can be a key. -/
  | fixed (items : List Datum)
  | map (pairs : List (Datum × Datum))
  | set (items : List Datum)
  /-- A list or a mapping in which this place lies, so that it holds itself. -/
  | enclosing (isMapping : Bool)
  deriving Inhabited

namespace Datum

mutual

def ofJson : Json → Datum
  | .null => .null
  | .bool b => .bool b
  | .int n => .int n
  | .float x => .float x
  | .str s => .text s
  | .unpaired pieces => .text (Json.shown pieces)
  | .arr items => .list (ofItems items)
  | .obj members => .map (ofMembers members)

def ofItems : List Json → List Datum
  | [] => []
  | item :: rest => ofJson item :: ofItems rest

def ofMembers : List (String × Json) → List (Datum × Datum)
  | [] => []
  | (key, value) :: rest => (.text key, ofJson value) :: ofMembers rest

end

mutual

/-- The value as JSON, for a reader that knows fields by name: members with other keys than
texts are left out, bytes count as the text that they encode, and what JSON does not have
becomes an array, which fits no field. -/
def toJson : Datum → Json
  | .null => .null
  | .bool b => .bool b
  | .int n => .int n
  | .float x => .float x
  | .text s => .str s
  | .list items => .arr (toItems items)
  | .map pairs => .obj (toMembers pairs)
  | .binary bytes =>
    match Text.decodeUtf8 bytes with
    | .ok decoded => .str decoded
    | .error _ => .arr []
  | .fixed _ | .date _ | .stamp _ | .set _ | .enclosing _ => .arr []

def toItems : List Datum → List Json
  | [] => []
  | item :: rest => item.toJson :: toItems rest

def toMembers : List (Datum × Datum) → List (String × Json)
  | [] => []
  | (.text key, value) :: rest => (key, value.toJson) :: toMembers rest
  | _ :: rest => toMembers rest

end

/-- The number that a datum counts as, if it is whole; true and false count as one and
zero. -/
def wholeNumber? : Datum → Option Int
  | .bool b => some (if b then 1 else 0)
  | .int n => some n
  | .float x =>
    match Decimal.Binary.ofFloat x with
    | .finite d => d.toInt?
    | _ => none
  | _ => none

mutual

/-- Whether two data are the same key of a mapping. Numbers are compared by their value;
lists that can change, mappings and sets are no keys. -/
def sameKey (a b : Datum) : Bool :=
  match a.wholeNumber?, b.wholeNumber? with
  | some m, some n => m = n
  | none, none =>
    match a, b with
    | .null, .null => true
    | .float x, .float y => x == y
    | .text s, .text t => s = t
    | .binary s, .binary t => s = t
    | .date d, .date e => d = e
    | .stamp t, .stamp u => t = u
    | .fixed xs, .fixed ys => sameKeys xs ys
    | _, _ => false
  | _, _ => false

def sameKeys : List Datum → List Datum → Bool
  | [], [] => true
  | x :: xs, y :: ys => sameKey x y && sameKeys xs ys
  | _, _ => false

end

/-- Sets the value of a key. A known key keeps its place. -/
def setKey (key value : Datum) : List (Datum × Datum) → List (Datum × Datum)
  | [] => [(key, value)]
  | (k, v) :: rest =>
    if sameKey k key then (k, value) :: rest else (k, v) :: setKey key value rest

mutual

/-- The kind of collection that keeps a datum from being a key. -/
def unhashable? : Datum → Option String
  | .list _ => some "list"
  | .map _ => some "dict"
  | .set _ => some "set"
  | .enclosing isMapping => some (if isMapping then "dict" else "list")
  | .fixed items => unhashableItem? items
  | _ => none

def unhashableItem? : List Datum → Option String
  | [] => none
  | item :: rest => item.unhashable? <|> unhashableItem? rest

end

mutual

/-- Whether lists and values of mappings lead back to one of them, without end. -/
def isEndless : Datum → Bool
  | .enclosing _ => true
  | .list items => anyEndless items
  | .map pairs => anyPairEndless pairs
  | _ => false

def anyEndless : List Datum → Bool
  | [] => false
  | item :: rest => item.isEndless || anyEndless rest

def anyPairEndless : List (Datum × Datum) → Bool
  | [] => false
  | (_, value) :: rest => value.isEndless || anyPairEndless rest

end

/-- The same value, with a list or a mapping written out where it stands right inside of
itself. -/
def unfolded (d : Datum) : Datum :=
  let inside (value : Datum) : Datum :=
    match value with
    | .enclosing _ => d
    | other => other
  match d with
  | .list items => .list (items.map inside)
  | .map pairs => .map (pairs.map fun (key, value) => (key, inside value))
  | other => other

end Datum

end BrowserSteps
