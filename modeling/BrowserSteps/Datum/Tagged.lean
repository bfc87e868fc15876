import BrowserSteps.Datum.Basic

/-!
Data as JSON with tags: an object whose only member is a tag stands for a number that is
not finite or for a point in time.
-/

namespace BrowserSteps.Datum

/-- A number that is not finite, by its word. -/
def specialFloat (word : String) : Float :=
  match word with
  | "nan" => 0.0 / 0.0
  | "inf" => 1.0 / 0.0
  | _ => -(1.0 / 0.0)

/-- What an object stands for that has a tag as its only member. -/
def ofTag? : List (String × Json) → Option Datum
  | [("$float", .str word)] => some (.float (specialFloat word))
  | [("$datetime", .str iso)] => some (((DateTime.ofIso? iso).map Datum.stamp).getD .null)
  | _ => none

mutual

def ofTagged : Json → Datum
  | .null => .null
  | .bool b => .bool b
  | .int n => .int n
  | .float x => .float x
  | .str s => .text s
  | .unpaired pieces => .text (Json.shown pieces)
  | .arr items => .list (ofTaggedItems items)
  | .obj members => (ofTag? members).getD (.map (ofTaggedMembers members))

def ofTaggedItems : List Json → List Datum
  | [] => []
  | item :: rest => ofTagged item :: ofTaggedItems rest

def ofTaggedMembers : List (String × Json) → List (Datum × Datum)
  | [] => []
  | (key, value) :: rest => (.text key, ofTagged value) :: ofTaggedMembers rest

end

end BrowserSteps.Datum
