/-!
XML elements and their text. An element holds either a text or further elements; those
stand on lines of their own, two spaces deeper than their parent.
-/

namespace BrowserSteps.Report.Xml

inductive Element where
  | leaf (name : String) (attributes : List (String × String)) (text : String)
  | branch (name : String) (attributes : List (String × String)) (children : List Element)
  deriving Inhabited

/-- How a character stands in a text. -/
def escapeTextChar (c : Char) : List Char :=
  if c = '&' then "&amp;".toList
  else if c = '<' then "&lt;".toList
  else if c = '>' then "&gt;".toList
  else [c]

/-- How a character stands in an attribute. Line breaks and tabs are written as numbers,
since a reader would take them for spaces. -/
def escapeAttributeChar (c : Char) : List Char :=
  if c = '"' then "&quot;".toList
  else if c = '\r' then "&#13;".toList
  else if c = '\n' then "&#10;".toList
  else if c = '\t' then "&#09;".toList
  else escapeTextChar c

def escapeText (s : String) : List Char := s.toList.flatMap escapeTextChar

def escapeAttribute (s : String) : List Char := s.toList.flatMap escapeAttributeChar

def attributeChars (pair : String × String) : List Char :=
  ' ' :: pair.1.toList ++ '=' :: '"' :: escapeAttribute pair.2 ++ ['"']

/-- A tag without its angle brackets. -/
def tagChars (name : String) (attributes : List (String × String)) : List Char :=
  name.toList ++ attributes.flatMap attributeChars

/-- A line break and the blanks of a level. -/
def newLine (level : Nat) : List Char := '\n' :: List.replicate (2 * level) ' '

mutual

/-- An element at a level of nesting. -/
def Element.chars (level : Nat) : Element → List Char
  | .leaf name attributes text =>
    if text.isEmpty then '<' :: tagChars name attributes ++ " />".toList
    else
      '<' :: tagChars name attributes ++ '>' :: escapeText text ++
        '<' :: '/' :: name.toList ++ ['>']
  | .branch name attributes [] => '<' :: tagChars name attributes ++ " />".toList
  | .branch name attributes children =>
    '<' :: tagChars name attributes ++ '>' :: childrenChars (level + 1) children ++
      newLine level ++ '<' :: '/' :: name.toList ++ ['>']

/-- Elements on lines of their own. -/
def childrenChars (level : Nat) : List Element → List Char
  | [] => []
  | child :: rest => newLine level ++ child.chars level ++ childrenChars level rest

end

/-- The line in front of every document. -/
def prolog : String := "<?xml version=\"1.0\" encoding=\"utf-8\"?>\n"

/-- A document with an element as its root. -/
def document (root : Element) : String := prolog ++ String.ofList (root.chars 0) ++ "\n"

end BrowserSteps.Report.Xml
