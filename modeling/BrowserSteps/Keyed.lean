/-!
Lists of keys with their values, in the order in which the keys first appeared.
-/

namespace BrowserSteps.Keyed

variable {κ α : Type} [BEq κ]

/-- Gives a key a value. A known key keeps its place. -/
def put (key : κ) (value : α) : List (κ × α) → List (κ × α)
  | [] => [(key, value)]
  | (k, v) :: rest => if k == key then (k, value) :: rest else (k, v) :: put key value rest

/-- The list that a sequence of pairs leaves: first places, last values. -/
def ofPairs (pairs : List (κ × α)) : List (κ × α) :=
  pairs.foldl (fun all (key, value) => put key value all) []

variable [LawfulBEq κ]

/-- A key that was put is found with its new value. -/
@[simp] theorem lookup_put_self (key : κ) (value : α) (all : List (κ × α)) :
    (put key value all).lookup key = some value := by
  induction all with
  | nil => simp [put]
  | cons pair rest ih =>
    obtain ⟨k, v⟩ := pair
    by_cases h : k = key
    · simp [put, h]
    · simp [put, List.lookup_cons, h, ih, beq_false_of_ne (Ne.symm h)]

/-- Other keys keep their values. -/
theorem lookup_put_of_ne {key other : κ} (h : other ≠ key) (value : α) (all : List (κ × α)) :
    (put key value all).lookup other = all.lookup other := by
  induction all with
  | nil => simp [put, List.lookup_cons, beq_false_of_ne h]
  | cons pair rest ih =>
    obtain ⟨k, v⟩ := pair
    by_cases hk : k = key
    · subst hk
      simp [put, List.lookup_cons, beq_false_of_ne h]
    · simp [put, hk, List.lookup_cons, ih]

end BrowserSteps.Keyed
