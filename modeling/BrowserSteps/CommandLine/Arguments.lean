/-!
The words of a command line. A word that begins with a dash gives switches: two dashes and
a name, or one dash and letters. A switch that takes a value takes it from its own word, or
else the next word, whatever that is. Every other word is an operand, and so is everything
that follows a word of two dashes.
-/

namespace BrowserSteps.CommandLine

inductive Switch where
  | tag
  | capture
  | noCapture
  | headed
  | headless
  | param
  | timeout
  | reportDirectory
  | config
  | verbose
  | output
  | templatesDirectory
  deriving DecidableEq, Repr

namespace Switch

/-- The long name of a switch. -/
def name : Switch → String
  | .tag => "--tag"
  | .capture => "--capture"
  | .noCapture => "--no-capture"
  | .headed => "--headed"
  | .headless => "--headless"
  | .param => "--param"
  | .timeout => "--timeout"
  | .reportDirectory => "--report-dir"
  | .config => "--config"
  | .verbose => "--verbose"
  | .output => "--output"
  | .templatesDirectory => "--templates-dir"

/-- The letter that a switch also goes by. -/
def letter? : Switch → Option Char
  | .tag => some 't'
  | .param => some 'p'
  | .config => some 'c'
  | .verbose => some 'v'
  | .output => some 'o'
  | _ => none

def takesValue : Switch → Bool
  | .capture | .noCapture | .headed | .headless | .verbose => false
  | _ => true

end Switch

/-- Switches with their values; those that take none have an empty one. -/
abbrev Given := List (Switch × String)

/-- The switches of one word, and the one that takes the next word as its value. -/
structure Bundle where
  given : Given := []
  wanting : Option Switch := none
  deriving DecidableEq, Repr

/-- The switch of a long name, with the value that follows an equals sign. -/
def longBundle? (known : List Switch) (name : List Char) (value : Option (List Char)) :
    Option Bundle :=
  match known.find? (·.name.toList = name), value with
  | none, _ => none
  | some switch, some value =>
    if switch.takesValue then some { given := [(switch, String.ofList value)] } else none
  | some switch, none =>
    some (if switch.takesValue then { wanting := some switch } else { given := [(switch, "")] })

/-- The switches of letters. The first one that takes a value takes the rest of the word. -/
def letterBundle? (known : List Switch) : List Char → Option Bundle
  | [] => some {}
  | c :: rest =>
    match known.find? (·.letter? = some c) with
    | none => none
    | some switch =>
      if !switch.takesValue then
        (letterBundle? known rest).map fun b => { b with given := (switch, "") :: b.given }
      else if rest.isEmpty then some { wanting := some switch }
      else some { given := [(switch, String.ofList rest)] }

/-- Parts a word at its first equals sign. -/
def partWord (word : List Char) : List Char × Option (List Char) :=
  (word.takeWhile (· ≠ '='), (word.dropWhile (· ≠ '=')).tail?)

/-- The switches of a word that begins with a dash. -/
def bundle? (known : List Switch) (word : List Char) : Option Bundle :=
  match longBundle? known (partWord word).1 (partWord word).2 with
  | some bundle => some bundle
  | none => if "--".toList.isPrefixOf word then none else letterBundle? known word.tail

/-- Whether a word gives switches. A dash on its own does not. -/
def isSwitchWord (word : List Char) : Bool := word.head? = some '-' && 1 < word.length

/-- The operands and switches of a command line, each in their order. -/
structure Arguments where
  operands : List String := []
  given : Given := []
  deriving DecidableEq, Repr

namespace Arguments

/-- Reads words. An unknown switch, a value too many and one too few are refused. -/
def read? (known : List Switch) : List String → Option Arguments
  | [] => some {}
  | word :: rest =>
    if word = "--" then some { operands := rest }
    else if !isSwitchWord word.toList then
      (read? known rest).map fun a => { a with operands := word :: a.operands }
    else
      match bundle? known word.toList with
      | none => none
      | some ⟨given, none⟩ =>
        (read? known rest).map fun a => { a with given := given ++ a.given }
      | some ⟨given, some switch⟩ =>
        match rest with
        | [] => none
        | value :: rest =>
          (read? known rest).map fun a => { a with given := given ++ (switch, value) :: a.given }

/-- The value of a switch that was given; of several the last. -/
def value? (a : Arguments) (switch : Switch) : Option String :=
  ((a.given.filter (·.1 = switch)).getLast?).map (·.2)

/-- All values of a switch. -/
def values (a : Arguments) (switch : Switch) : List String :=
  (a.given.filter (·.1 = switch)).map (·.2)

/-- Which of two switches was given last: the first one for true. -/
def choice? (a : Arguments) (on off : Switch) : Option Bool :=
  ((a.given.filter fun (s, _) => s = on || s = off).getLast?).map (·.1 = on)

end Arguments

end BrowserSteps.CommandLine
