import BrowserSteps.Datum.Basic
import BrowserSteps.Text.Numeral
import BrowserSteps.Yaml.Node.Reader

/-!
From nodes to data. Collections are looked through level by level, so that of two faults
the one on the outer level comes first; keys are built as a whole. Merged pairs come before
the own pairs of a mapping and give way to them.
-/

namespace BrowserSteps.Yaml

namespace Value

def fail {α : Type} (problem : Problem) (node : Node) : Except Fault α :=
  .error (.form problem node.place)

/-! ### Scalars -/

/-- The number that digits write to a base. -/
def ofBase? (base : Nat) (s : List Char) : Option Nat :=
  let value? (c : Char) : Option Nat := (Quoted.hexValue? c).filter (· < base)
  let digits := s.filterMap value?
  if s.isEmpty || digits.length ≠ s.length then none
  else some (digits.foldl (fun n d => base * n + d) 0)

/-- Reads digits to a base. -/
def based (base : Nat) (s : List Char) : Except Fault Int :=
  match ofBase? base s with
  | some n => .ok n
  | none => .error (.value (.badInteger base (String.ofList s)))

/-- Reads decimal digits. -/
def decimal (s : List Char) : Except Fault Int :=
  match Text.readInteger (String.ofList s) with
  | .ok n => .ok n
  | .error (.tooLong digits) => .error (.value (.longNumber digits))
  | .error .malformed => .error (.value (.badInteger 10 (String.ofList s)))

/-- Reads a number to the base ten. -/
def number (s : List Char) : Except Fault Float :=
  match Text.readFloat? (String.ofList s) with
  | some x => .ok x
  | none => .error (.value (.badFloat (String.ofList s)))

/-- The pieces of a text between colons. -/
def pieces : List Char → List (List Char)
  | [] => [[]]
  | ':' :: rest => [] :: pieces rest
  | c :: rest =>
    match pieces rest with
    | [] => [[c]]
    | piece :: more => (c :: piece) :: more

/-- A sign and the text behind it, without underscores. -/
def signed (s : List Char) : Except Fault (Bool × List Char) :=
  match s.filter (· ≠ '_') with
  | [] => .error (.value .emptyNumber)
  | text => .ok (Text.splitSign text)

def integer (version : Version) (text : String) : Except Fault Datum := do
  let (negative, body) ← signed text.toList
  let n : Int ← match body with
    | '0' :: 'b' :: rest => based 2 rest
    | '0' :: 'x' :: rest => based 16 rest
    | '0' :: 'o' :: rest => based 8 rest
    | _ =>
      if version = .old && body.head? = some '0' && body.length ≠ 1 then based 8 body
      else if version = .old && body.isEmpty then .error (.value .emptyNumber)
      else if version = .old && body.contains ':' then do
        let digits ← (pieces body).mapM decimal
        pure (digits.foldl (fun n d => 60 * n + d) 0)
      else decimal body
  return .int (if negative then -n else n)

def float (version : Version) (text : String) : Except Fault Datum := do
  let (negative, body) ← signed (text.toList.map Char.toLower)
  let magnitude ←
    if body = ".inf".toList then pure (1.0 / 0.0)
    else if body = ".nan".toList then pure (0.0 / 0.0)
    else if version ≠ .current && body.contains ':' then do
      let digits ← (pieces body).mapM number
      pure (digits.reverse.foldl
        (fun (sum, base) d => (sum + d * base, base * 60)) ((0.0 : Float), (1.0 : Float))).1
    else number body
  return .float (if negative then -magnitude else magnitude)

def truth (text : String) : Except Fault Datum :=
  let word := text.toLower
  if word ∈ ["yes", "y", "true", "on"] then .ok (.bool true)
  else if word ∈ ["no", "n", "false", "off"] then .ok (.bool false)
  else .error (.value (.badTruth word))

def dated {α : Type} : Except DateFault α → Except Fault α
  | .ok x => .ok x
  | .error e => .error (.value (.badDate e))

def timestamp (node : Node) (text : String) : Except Fault Datum := do
  match Timestamp.ofText? text.toList with
  | none => fail .badTimestamp node
  | some t =>
    let d ← dated t.checkDate
    match t.time with
    | none => return .date d
    | some time =>
      dated (Timestamp.checkTime time)
      let written := DateTime.ofParts d
        ⟨time.hour, time.minute, time.second, Timestamp.micros time % 1000000⟩
      match Timestamp.inRange? (written.add (-Timestamp.shift time)) with
      | some instant => return .stamp instant
      | none => throw (.value .dateRange)

/-- The six bits that a character of base64 stands for. -/
def sextet? (c : Char) : Option Nat :=
  if 'A' ≤ c ∧ c ≤ 'Z' then some (c.toNat - 'A'.toNat)
  else if 'a' ≤ c ∧ c ≤ 'z' then some (c.toNat - 'a'.toNat + 26)
  else if '0' ≤ c ∧ c ≤ '9' then some (c.toNat - '0'.toNat + 52)
  else if c = '+' then some 62
  else if c = '/' then some 63
  else none

/-- Decodes base64. Other characters are skipped, and the padding ends the text; a group of
four that is begun and not padded is a fault. `group` holds the sextets of the group in
reverse. -/
def base64? : List Nat → Nat → List Char → Option Text.Bytes
  | group, _, [] => if group.isEmpty then some [] else none
  | group, pads, c :: rest =>
    if c = '=' then
      if 2 ≤ group.length && 4 ≤ group.length + pads + 1 then
        match group with
        | [b, a] => some [(4 * a + b / 16).toUInt8]
        | [c, b, a] => some [(4 * a + b / 16).toUInt8, (16 * b + c / 4).toUInt8]
        | _ => some []
      else base64? group (pads + 1) rest
    else
      match sextet? c, group with
      | none, _ => base64? group pads rest
      | some d, [c, b, a] =>
        (base64? [] 0 rest).map fun bytes =>
          (4 * a + b / 16).toUInt8 :: (16 * b + c / 4).toUInt8 :: (64 * c + d).toUInt8 :: bytes
      | some d, _ => base64? (d :: group) 0 rest

def binary (node : Node) (text : String) : Except Fault Datum :=
  if text.toList.all (·.toNat < 128) then
    match base64? [] 0 text.toList with
    | some bytes => .ok (.binary bytes)
    | none => fail .badBinary node
  else fail .badBinary node

/-- The value of a node whose tag asks for a scalar. -/
def scalar (version : Version) (node : Node) : Except Fault Datum :=
  match node with
  | .scalar tag text _ =>
    match tag with
    | .null => .ok .null
    | .bool => truth text
    | .int => integer version text
    | .float => float version text
    | .binary => binary node text
    | .timestamp => timestamp node text
    | .str => .ok (.text text)
    | _ => fail .unknownTag node
  | .sequence tag _ _ | .mapping tag _ _ =>
    match tag with
    | .null | .bool | .int | .float | .binary | .str => fail .wrongKind node
    | .timestamp => fail .badTimestamp node
    | _ => fail .unknownTag node
  | .recursive isMapping _ => .ok (.enclosing isMapping)

/-! ### Collections -/

def tagOf : Node → Tag
  | .scalar tag .. | .sequence tag .. | .mapping tag .. => tag
  | .recursive .. => .null

/-- Whether a tag asks for a collection. -/
def isCollection (node : Node) : Bool :=
  match tagOf node with
  | .seq | .map | .omap | .pairs | .set => true
  | _ => false

def isMerge (node : Node) : Bool := tagOf node = .merge

/-- A key without the tag that makes an equals sign special. -/
def plainKey : Node → Node
  | .scalar .value text place => .scalar .str text place
  | key => key

/-- The merged pairs and the own pairs of a mapping. -/
structure Pairs where
  merged : List (Node × Node) := []
  own : List (Node × Node) := []

namespace Pairs

/-- All pairs, the merged ones first. -/
def all (p : Pairs) : List (Node × Node) := p.merged ++ p.own

end Pairs

mutual

/-- Parts the pairs of a mapping into merged ones and own ones. A second merge is a
duplicate key, unless the first one brought nothing. The bound is on the depth. -/
def parted (pairs : List (Node × Node)) (bound : Nat) : Except Fault Pairs :=
  match bound with
  | 0 => .error (.value .recursive)
  | bound + 1 => partedFrom pairs bound {}
termination_by (bound, 0, 0)

def partedFrom (pairs : List (Node × Node)) (bound : Nat) (read : Pairs) : Except Fault Pairs :=
  match pairs with
  | [] => .ok { read with own := read.own.reverse }
  | (key, value) :: rest =>
    if isMerge key then
      if !read.merged.isEmpty then fail .duplicateKey key
      else do
        let merged ← mergedPairs value bound
        partedFrom rest bound { read with merged }
    else partedFrom rest bound { read with own := (plainKey key, value) :: read.own }
termination_by (bound, 3, pairs.length)

/-- The pairs that a merge brings. -/
def mergedPairs (node : Node) (bound : Nat) : Except Fault (List (Node × Node)) :=
  match node with
  | .mapping _ pairs _ => (parted pairs bound).map Pairs.all
  | .sequence _ items _ => mergedItems items bound []
  | node => fail .badMerge node
termination_by (bound, 2, 0)

/-- The pairs that several mappings bring, of which the first has the last word. -/
def mergedItems (items : List Node) (bound : Nat) (later : List (Node × Node)) :
    Except Fault (List (Node × Node)) :=
  match items with
  | [] => .ok later
  | .mapping _ pairs _ :: rest => do
    let p ← parted pairs bound
    mergedItems rest bound (p.all ++ later)
  | node :: _ => fail .badMerge node
termination_by (bound, 1, items.length)

end

/-- A datum as a key: a list becomes one that cannot change. -/
def toKey (node : Node) : Datum → Except Fault Datum
  | .list items => .ok (.fixed items)
  | .map _ | .set _ | .enclosing _ => fail .unhashableKey node
  | key => .ok key

/-- A key that can be looked up. -/
def hashed (key : Datum) : Except Fault Datum :=
  match key.unhashable? with
  | some kind => .error (.value (.unhashable kind))
  | none => .ok key

/-- What a collection is made of, with something in the place of its values. -/
inductive Parts (α : Type) where
  | items (items : List α)
  | pairs (pairs : List (Datum × α))

namespace Parts

/-- All values. -/
def values {α : Type} : Parts α → List α
  | items xs => xs
  | pairs ps => ps.map (·.2)

/-- The datum that a tag makes of the parts. -/
def datum (tag : Tag) : Parts Datum → Datum
  | items xs => .list xs
  | pairs ps =>
    match tag with
    | .pairs => .list (ps.map fun (key, value) => .fixed [key, value])
    | .set => .set (((ps.foldl (fun all (key, _) => Datum.setKey key .null all) [])).map (·.1))
    | _ => .map (ps.foldl (fun all (key, value) => Datum.setKey key value all) [])

end Parts

section

variable {α : Type} (key : Node → Except Fault Datum) (visit : Node → Except Fault α)

/-- The pairs of a mapping. Own keys may not repeat where nothing is merged. -/
def mappingParts (unique : Bool) :
    List (Node × Node) → List (Datum × α) → Except Fault (List (Datum × α))
  | [], read => .ok read.reverse
  | (keyNode, valueNode) :: rest, read => do
    let k ← toKey keyNode (← key keyNode)
    let v ← visit valueNode
    let k ← hashed k
    if unique && read.any (fun (other, _) => Datum.sameKey other k) then fail .duplicateKey keyNode
    else mappingParts unique rest ((k, v) :: read)

/-- The pairs of a list of mappings with one pair each. -/
def listedParts (list : Node) (ordered : Bool) :
    List Node → List (Datum × α) → Except Fault (List (Datum × α))
  | [], read => .ok read.reverse
  | .mapping _ [(keyNode, valueNode)] _ :: rest, read => do
    let k ← key keyNode
    let k ← if ordered then hashed k else pure k
    if ordered && read.any (fun (other, _) => Datum.sameKey other k) then
      throw (.value .repeatedKey)
    else
      let v ← visit valueNode
      listedParts list ordered rest ((k, v) :: read)
  | node :: _, _ => fail .wrongKind node

/-- What a collection is made of. The bound is on the depth of merges. -/
def parts (bound : Nat) (node : Node) : Except Fault (Parts α) :=
  match tagOf node, node with
  | .seq, .sequence _ items _ => (items.mapM visit).map .items
  | .omap, .sequence _ items _ => (listedParts key visit node true items []).map .pairs
  | .pairs, .sequence _ items _ => (listedParts key visit node false items []).map .pairs
  | .map, .mapping _ pairs _ | .set, .mapping _ pairs _ => do
    let p ← parted pairs bound
    (mappingParts key visit p.merged.isEmpty p.all []).map .pairs
  | _, node => fail .wrongKind node

end

/-- The datum of a node, looked through depth first. The bound is on the depth. -/
def build (version : Version) : Nat → Node → Except Fault Datum
  | 0, _ => .error (.value .recursive)
  | bound + 1, node =>
    if isCollection node then
      (parts (build version bound) (build version bound) (bound + 1) node).map
        (Parts.datum (tagOf node))
    else scalar version node

/-- The collection that a node is, which is left for later; a scalar is looked at. -/
def later (version : Version) (node : Node) : Except Fault (List Node) :=
  if isCollection node then .ok [node]
  else (scalar version node).map fun _ => []

/-- Looks through collections and then through those inside them. The bound is on the
depth. -/
def lookThrough (version : Version) : Nat → List Node → Except Fault Unit
  | 0, _ => .ok ()
  | bound + 1, nodes => do
    let inner ← nodes.mapM fun node =>
      (parts (build version bound) (later version) (bound + 1) node).map fun p => p.values.flatten
    if inner.flatten.isEmpty then return () else lookThrough version bound inner.flatten

/-- The datum of a node. -/
def ofNode (version : Version) (node : Node) : Except Fault Datum := do
  let bound := node.depth + 1
  lookThrough version bound (← later version node)
  build version bound node

end Value

/-- Reads a YAML text with a single document. A text without one is nothing at all. -/
def read (text : String) : Except Fault Datum := do
  if text.toList.all isPrintable then
    match ← Node.ofText? text.toList with
    | none => return .null
    | some (version, node) => return (← Value.ofNode version node).unfolded
  else throw .unprintable

end BrowserSteps.Yaml
