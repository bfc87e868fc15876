import BrowserSteps.Files.Path
import BrowserSteps.Keyed
import BrowserSteps.Text.Quoted
import BrowserSteps.Text.Utf8

/-!
A tree of files below a working directory, and the operations of a program on it. Every
name on the way to a file must be that of a directory, no name may be longer than 255
bytes, and a path has less than 4096.
-/

namespace BrowserSteps

inductive Entry where
  | file (content : Text.Bytes)
  | directory
  deriving DecidableEq, Repr, Inhabited

/-- What a file operation can fail with. -/
inductive FileFault where
  | missing
  | exists
  | notDirectory
  | isDirectory
  | nameTooLong
  deriving DecidableEq, Repr

namespace FileFault

/-- The number of a fault. -/
def number : FileFault → Nat
  | .missing => 2
  | .exists => 17
  | .notDirectory => 20
  | .isDirectory => 21
  | .nameTooLong => 36

def words : FileFault → String
  | .missing => "No such file or directory"
  | .exists => "File exists"
  | .notDirectory => "Not a directory"
  | .isDirectory => "Is a directory"
  | .nameTooLong => "File name too long"

end FileFault

/-- A failed file operation. -/
inductive FileError where
  | failed (fault : FileFault) (path : Path)
  | encoding (error : Text.Utf8Error)
  deriving DecidableEq, Repr

/-- Two hexadecimal digits. -/
private def byteText (b : UInt8) : String := String.ofList (Text.hexPadded 2 b.toNat)

def FileError.message : FileError → String
  | .failed fault path =>
    "[Errno " ++ toString fault.number ++ "] " ++ fault.words ++ ": " ++ Text.quoted path.text
  | .encoding e =>
    let place := match e.bytes with
      | [b] => "byte 0x" ++ byteText b ++ " in position " ++ toString e.position
      | bytes =>
        "bytes in position " ++ toString e.position ++ "-" ++
          toString (e.position + bytes.length - 1)
    let reason := match e.fault with
      | .start => "invalid start byte"
      | .continuation => "invalid continuation byte"
      | .unfinished => "unexpected end of data"
    "'utf-8' codec can't decode " ++ place ++ ": " ++ reason

/-- Files and directories by the names that lead to them. The working directory itself is
the empty sequence of names; it is always there, and so are the directories above it. -/
structure FileTree where
  entries : List (List String × Entry) := []
  deriving DecidableEq, Repr, Inhabited

namespace FileTree

/-- The longest name, in bytes. -/
def nameLimit : Nat := 255

/-- Whether a place is the working directory or one above it. -/
def isAbove (place : List String) : Bool := place.all (· = "..")

/-- What stands at a place. -/
def at? (tree : FileTree) (place : List String) : Option Entry :=
  if isAbove place then some .directory else tree.entries.lookup place

/-- Puts an entry at a place. A known place keeps its position. -/
def put (tree : FileTree) (place : List String) (entry : Entry) : FileTree :=
  ⟨Keyed.put place entry tree.entries⟩

/-- Where a name leads from a directory. The root of absolute paths has a place of its own. -/
def step (place : List String) (name : String) : List String :=
  if name = ".." && !isAbove place then place.dropLast else place ++ [name]

/-- Walks along names through directories and answers the place reached, whether or not
anything stands there. -/
def walk (tree : FileTree) (place : List String) : List String → Except FileFault (List String)
  | [] => .ok place
  | name :: rest =>
    match tree.at? place with
    | none => .error .missing
    | some (.file _) => .error .notDirectory
    | some .directory =>
      if nameLimit < name.utf8ByteSize then .error .nameTooLong
      else tree.walk (step place name) rest

/-- The length in bytes from which on a path is too long. -/
def pathLimit : Nat := 4096

/-- The place that a path leads to. -/
def place (tree : FileTree) (path : Path) : Except FileFault (List String) :=
  if pathLimit ≤ path.text.utf8ByteSize then .error .nameTooLong
  else tree.walk [] (if path.absolute then "/" :: path.names else path.names)

/-- What stands at the end of a path. -/
def find (tree : FileTree) (path : Path) : Except FileFault Entry := do
  match tree.at? (← tree.place path) with
  | some entry => return entry
  | none => .error .missing

/-- Looks whether something is there. Only a name that is too long is an error. -/
def probe (tree : FileTree) (path : Path) : Except FileError (Option Entry) :=
  match tree.find path with
  | .ok entry => .ok (some entry)
  | .error .nameTooLong => .error (.failed .nameTooLong path)
  | .error _ => .ok none

/-- Whether a path leads anywhere. -/
def present (tree : FileTree) (path : Path) : Except FileError Bool :=
  (tree.probe path).map Option.isSome

def isFile (tree : FileTree) (path : Path) : Except FileError Bool :=
  (tree.probe path).map fun found => match found with
    | some (.file _) => true
    | _ => false

def isDirectory (tree : FileTree) (path : Path) : Except FileError Bool :=
  (tree.probe path).map fun found => match found with
    | some .directory => true
    | _ => false

/-- The bytes of a file. -/
def readBytes (tree : FileTree) (path : Path) : Except FileError Text.Bytes :=
  match tree.find path with
  | .ok (.file content) => .ok content
  | .ok .directory => .error (.failed .isDirectory path)
  | .error fault => .error (.failed fault path)

/-- The text of a file, with its line breaks normalized. -/
def readText (tree : FileTree) (path : Path) : Except FileError String := do
  let bytes ← tree.readBytes path
  match Text.decodeUtf8 bytes with
  | .ok text => return String.ofList (Text.normalizeBreaks text.toList)
  | .error e => .error (.encoding e)

/-- Writes a file, new or not, into an existing directory. -/
def writeBytes (tree : FileTree) (path : Path) (content : Text.Bytes) :
    Except FileError FileTree :=
  match tree.place path with
  | .error fault => .error (.failed fault path)
  | .ok place =>
    match tree.at? place with
    | some .directory => .error (.failed .isDirectory path)
    | _ => .ok (tree.put place (.file content))

def writeText (tree : FileTree) (path : Path) (text : String) : Except FileError FileTree :=
  tree.writeBytes path (Text.encodeUtf8 text)

/-- Makes one directory in an existing one. -/
def makeOne (tree : FileTree) (path : Path) : Except FileFault FileTree := do
  let place ← tree.place path
  match tree.at? place with
  | some _ => .error .exists
  | none => return tree.put place .directory

/-- Makes a directory and those above it. One that is there already is fine. What was made
before a failure stays. -/
def makeDirectories (tree : FileTree) (path : Path) : Except FileError Unit × FileTree :=
  go tree path (path.names.length + 1)
where
  /-- A directory may be there already; any other obstacle stays. -/
  settle (tree : FileTree) (path : Path) (fault : FileFault) : Except FileError Unit := do
    if ← tree.isDirectory path then return () else .error (.failed fault path)
  /-- Makes a directory below directories that are there, or are made at most so many. -/
  go (tree : FileTree) (path : Path) : Nat → Except FileError Unit × FileTree
    | 0 => (.error (.failed .missing path), tree)
    | bound + 1 =>
      match tree.makeOne path with
      | .ok made => (.ok (), made)
      | .error .missing =>
        match go tree path.parent bound with
        | (.error e, tree) => (.error e, tree)
        | (.ok (), tree) =>
          match tree.makeOne path with
          | .ok made => (.ok (), made)
          | .error fault => (settle tree path fault, tree)
      | .error fault => (settle tree path fault, tree)

/-- Removes the file at a path. -/
def remove (tree : FileTree) (path : Path) : Except FileError FileTree :=
  match tree.place path with
  | .error fault => .error (.failed fault path)
  | .ok place =>
    match tree.at? place with
    | none => .error (.failed .missing path)
    | some .directory => .error (.failed .isDirectory path)
    | some (.file _) => .ok ⟨tree.entries.filter (·.1 ≠ place)⟩

/-- The names in a directory. -/
def namesIn (tree : FileTree) (place : List String) : List String :=
  tree.entries.filterMap fun (p, _) =>
    if p.dropLast = place ∧ p ≠ [] then p.getLast? else none

/-- The files below the working directory with their content. -/
def files (tree : FileTree) : List (List String × Text.Bytes) :=
  tree.entries.filterMap fun (p, e) => match e with
    | .file content => if p.head? = some ".." then none else some (p, content)
    | .directory => none

/-- The files that are new or differ from those of an earlier tree. -/
def changedSince (tree before : FileTree) : List (List String × Text.Bytes) :=
  tree.files.filter fun (p, content) => before.at? p ≠ some (.file content)

end FileTree

end BrowserSteps
