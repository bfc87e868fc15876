/-!
Paths as sequences of names. Empty names and single dots vanish when a path is read, a
double dot stays; the empty path shows as a dot.
-/

namespace BrowserSteps

structure Path where
  absolute : Bool
  names : List String
  deriving DecidableEq, Repr, Inhabited

namespace Path

/-- The pieces of a text between slashes. -/
def pieces : List Char → List (List Char)
  | [] => [[]]
  | '/' :: rest => [] :: pieces rest
  | c :: rest =>
    match pieces rest with
    | [] => [[c]]
    | piece :: more => (c :: piece) :: more

/-- Whether a piece is a name of its own. -/
def isName (piece : List Char) : Bool := !(piece.isEmpty || piece = ['.'])

def ofString (s : String) : Path :=
  ⟨s.toList.head? = some '/', ((pieces s.toList).filter isName).map String.ofList⟩

def text (p : Path) : String :=
  let joined := "/".intercalate p.names
  if p.absolute then "/" ++ joined else if p.names.isEmpty then "." else joined

/-- A path below another one; an absolute path stands for itself. -/
def append (p q : Path) : Path := if q.absolute then q else ⟨p.absolute, p.names ++ q.names⟩

/-- The path that a text names below a path. -/
def child (p : Path) (s : String) : Path := p.append (ofString s)

def parent (p : Path) : Path := ⟨p.absolute, p.names.dropLast⟩

/-- The last name. -/
def name (p : Path) : String := p.names.getLast?.getD ""

/-- The place of the last dot of a name, if it parts the name into two. -/
def dotPlace? (name : List Char) : Option Nat :=
  let after := name.reverse.takeWhile (· ≠ '.')
  let place := name.length - after.length - 1
  if after.length = name.length || after.isEmpty || place = 0 then none else some place

/-- The last name from its last dot on. -/
def suffix (p : Path) : String :=
  match dotPlace? p.name.toList with
  | some place => String.ofList (p.name.toList.drop place)
  | none => ""

/-- A name without what follows its last dot. -/
def stemOf (name : String) : String :=
  match dotPlace? name.toList with
  | some place => String.ofList (name.toList.take place)
  | none => name

end Path

end BrowserSteps
