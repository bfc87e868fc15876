import BrowserSteps.Keyed

/-!
Assignments on the command line: a key and a value with an equals sign between them. The
first sign parts them, so that a value may hold more of them and either may be empty.
-/

namespace BrowserSteps.CommandLine

/-- The key and the value of an assignment. -/
def assignment? (item : String) : Option (String × String) :=
  match item.toList.dropWhile (· ≠ '=') with
  | [] => none
  | _ :: value => some (String.ofList (item.toList.takeWhile (· ≠ '=')), String.ofList value)

/-- What is said of an item that is no assignment. -/
def badAssignmentMessage (item : String) : String :=
  "KEY=VALUE 形式で指定してください: " ++ item

/-- The pairs of items that all are assignments, or else the first item that is none. -/
def assignmentPairs : List String → Except String (List (String × String))
  | [] => .ok []
  | item :: rest =>
    match assignment? item with
    | none => .error item
    | some pair => (assignmentPairs rest).map (pair :: ·)

/-- The values that assignments give to keys: a later one replaces an earlier one. -/
def assignments (items : List String) : Except String (List (String × String)) :=
  (assignmentPairs items).map Keyed.ofPairs

theorem dropWhile_ne_eq_nil_iff (sign : Char) (text : List Char) :
    text.dropWhile (· ≠ sign) = [] ↔ sign ∉ text := by
  induction text with
  | nil => simp
  | cons c rest ih =>
    by_cases h : c = sign
    · simp [h]
    · simpa [List.dropWhile_cons, h, Ne.symm h] using ih

/-- An item is an assignment if there is a sign in it. -/
theorem assignment?_eq_none_iff (item : String) : assignment? item = none ↔ '=' ∉ item.toList := by
  rw [← dropWhile_ne_eq_nil_iff]
  unfold assignment?
  split <;> simp_all

end BrowserSteps.CommandLine
