import BrowserSteps.Json.Basic
import BrowserSteps.Text.Quoted

/-!
JSON texts. Only quotation marks, backslashes and control characters are escaped. The flat
layout puts a space after commas and colons; the deep layout gives each member a line of
its own, two spaces deeper than its parent.
-/

namespace BrowserSteps.Json

/-- How a character stands inside a JSON string. -/
def escapeChar (c : Char) : List Char :=
  if c = '"' then ['\\', '"']
  else if c = '\\' then ['\\', '\\']
  else if c = '\n' then ['\\', 'n']
  else if c = '\r' then ['\\', 'r']
  else if c = '\t' then ['\\', 't']
  else if c = '\x08' then ['\\', 'b']
  else if c = '\x0c' then ['\\', 'f']
  else if c.toNat < 0x20 then '\\' :: 'u' :: Text.hexPadded 4 c.toNat
  else [c]

/-- A JSON string. -/
def stringText (s : String) : List Char := '"' :: s.toList.flatMap escapeChar ++ ['"']

/-- The text of a value that holds no others. -/
def atomText : Json → List Char
  | .null => "null".toList
  | .bool true => "true".toList
  | .bool false => "false".toList
  | .int n => (toString n).toList
  | .float x => (Decimal.shortestText .json x).toList
  | .str s => stringText s
  | .unpaired pieces => stringText (shown pieces)
  | .arr _ => "[]".toList
  | .obj _ => "\x7b\x7d".toList

mutual

/-- The flat layout. -/
def flatChars : Json → List Char
  | .arr items => '[' :: flatItems items ++ [']']
  | .obj members => '{' :: flatMembers members ++ ['}']
  | atom => atomText atom

/-- Items with a comma and a space between them. -/
def flatItems : List Json → List Char
  | [] => []
  | [item] => flatChars item
  | item :: rest => flatChars item ++ ',' :: ' ' :: flatItems rest

/-- Members with a comma and a space between them. -/
def flatMembers : List (String × Json) → List Char
  | [] => []
  | [(key, value)] => stringText key ++ ':' :: ' ' :: flatChars value
  | (key, value) :: rest =>
    stringText key ++ ':' :: ' ' :: flatChars value ++ ',' :: ' ' :: flatMembers rest

end

/-- A line break and the blanks of a level. -/
def newLine (level : Nat) : List Char := '\n' :: List.replicate (2 * level) ' '

mutual

/-- The deep layout, at a level of nesting. -/
def deepChars (level : Nat) : Json → List Char
  | .arr [] => "[]".toList
  | .obj [] => "\x7b\x7d".toList
  | .arr items => '[' :: deepItems (level + 1) items ++ newLine level ++ [']']
  | .obj members => '{' :: deepMembers (level + 1) members ++ newLine level ++ ['}']
  | atom => atomText atom

/-- Items on lines of their own. -/
def deepItems (level : Nat) : List Json → List Char
  | [] => []
  | [item] => newLine level ++ deepChars level item
  | item :: rest => newLine level ++ deepChars level item ++ ',' :: deepItems level rest

/-- Members on lines of their own. -/
def deepMembers (level : Nat) : List (String × Json) → List Char
  | [] => []
  | [(key, value)] => newLine level ++ stringText key ++ ':' :: ' ' :: deepChars level value
  | (key, value) :: rest =>
    newLine level ++ stringText key ++ ':' :: ' ' :: deepChars level value ++
      ',' :: deepMembers level rest

end

/-- The text of a value on one line. -/
def flatText (value : Json) : String := String.ofList (flatChars value)

/-- The text of a value on indented lines. -/
def deepText (value : Json) : String := String.ofList (deepChars 0 value)

end BrowserSteps.Json
