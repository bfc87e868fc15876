import BrowserSteps.Pattern.Replace
import BrowserSteps.Step.Document

/-!
Filling in templates. Every key is a pattern that is replaced by its value in the raw text,
one key after the other; a key that is no pattern stands for itself. Values are inserted as
they are.
-/

namespace BrowserSteps.Template

/-- A key that cannot be used at all. -/
inductive KeyError where
  | repetitionTooLarge
  | conflictingFlags
  deriving DecidableEq, Repr

def KeyError.message : KeyError → String
  | .repetitionTooLarge => "the repetition number is too large"
  | .conflictingFlags => "ASCII and UNICODE flags are incompatible"

/-- Replaces what one key matches. -/
def substituteKey (key value text : String) : Except KeyError String :=
  match Pattern.read key with
  | .ok pattern => .ok (String.ofList (pattern.replaceAll value.toList text.toList))
  | .error .malformed =>
    .ok (String.ofList (Pattern.replaceWord key.toList value.toList text.toList))
  | .error .repetitionTooLarge => .error .repetitionTooLarge
  | .error .conflictingFlags => .error .conflictingFlags

/-- Replaces what all keys match, in their order. -/
def substitute (text : String) : List (String × String) → Except KeyError String
  | [] => .ok text
  | (key, value) :: rest => do substitute (← substituteKey key value text) rest

/-- What filling in and reading a template can fail with. -/
inductive BuildError where
  | key (error : KeyError)
  | read (error : Json.ReadError)
  deriving DecidableEq, Repr

/-- What is said of a template that cannot be filled in or read. -/
def BuildError.message : BuildError → String
  | .key error => error.message
  | .read (.longNumber digits) => Text.longNumberMessage digits
  | .read .malformed => ""

/-- The steps of a filled in template. -/
def build (text : String) (params : List (String × String)) : Except BuildError (List Step) :=
  if text.isEmpty then .ok []
  else
    match substitute text params with
    | .error e => .error (.key e)
    | .ok filled => (Step.parse filled).mapError .read

end BrowserSteps.Template
