import BrowserSteps.Keyed
import Mathlib.Data.List.Induction
import Mathlib.Data.List.Nodup

/-!
What a sequence of pairs leaves under a key: the value of the last pair with that key. The keys that
are left are distinct.
-/

namespace BrowserSteps.Keyed

variable {κ α : Type}

/-- The value of the last pair with a key. -/
def last? [DecidableEq κ] (key : κ) (pairs : List (κ × α)) : Option α :=
  ((pairs.filter (·.1 = key)).map (·.2)).getLast?

theorem last?_cons [DecidableEq κ] (key : κ) (pair : κ × α) (pairs : List (κ × α)) :
    last? key (pair :: pairs) = (last? key pairs).or (if pair.1 = key then some pair.2 else none) := by
  unfold last?
  by_cases h : pair.1 = key
  · rw [List.filter_cons_of_pos (by simpa using h), List.map_cons, List.getLast?_cons, if_pos h]
    cases ((pairs.filter (·.1 = key)).map (·.2)).getLast? <;> rfl
  · rw [List.filter_cons_of_neg (by simpa using h), if_neg h, Option.or_none]

theorem last?_eq_none [DecidableEq κ] {key : κ} {pairs : List (κ × α)} :
    last? key pairs = none ↔ key ∉ pairs.map (·.1) := by
  simp only [last?, List.getLast?_eq_none_iff, List.map_eq_nil_iff, List.filter_eq_nil_iff,
    decide_eq_true_eq, List.mem_map, not_exists, not_and]

theorem last?_concat [DecidableEq κ] (key : κ) (pairs : List (κ × α)) (pair : κ × α) :
    last? key (pairs ++ [pair]) = if pair.1 = key then some pair.2 else last? key pairs := by
  unfold last?
  by_cases h : pair.1 = key <;> simp [List.filter_append, h]

variable [BEq κ]

theorem ofPairs_concat (pairs : List (κ × α)) (key : κ) (value : α) :
    ofPairs (pairs ++ [(key, value)]) = put key value (ofPairs pairs) :=
  List.foldl_concat ..

variable [LawfulBEq κ]

theorem put_of_notMem {key : κ} {all : List (κ × α)} (fresh : key ∉ all.map (·.1)) (value : α) :
    put key value all = all ++ [(key, value)] := by
  induction all with
  | nil => rfl
  | cons pair all ih =>
      rw [List.map_cons, List.mem_cons, not_or] at fresh
      rw [put, if_neg (by simpa using Ne.symm fresh.1), ih fresh.2]
      rfl

/-- A known key keeps its place. -/
theorem keys_put_of_mem {key : κ} {all : List (κ × α)} (known : key ∈ all.map (·.1)) (value : α) :
    (put key value all).map (·.1) = all.map (·.1) := by
  induction all with
  | nil => cases known
  | cons pair all ih =>
      rw [put]
      split
      · rfl
      next other =>
        rw [List.map_cons, List.mem_cons] at known
        rw [List.map_cons, List.map_cons, ih (known.resolve_left fun same => other (by simp [same]))]

/-- Pairs with distinct keys stay as they are. -/
theorem ofPairs_of_nodup {pairs : List (κ × α)} (distinct : (pairs.map (·.1)).Nodup) :
    ofPairs pairs = pairs := by
  induction pairs using List.reverseRecOn with
  | nil => rfl
  | append_singleton pairs pair ih =>
      rw [List.map_append, List.nodup_append] at distinct
      obtain ⟨before, -, apart⟩ := distinct
      have fresh : pair.1 ∉ pairs.map (·.1) := fun known =>
        apart _ known _ (List.mem_singleton_self _) rfl
      rw [ofPairs_concat, ih before]
      exact put_of_notMem fresh pair.2

theorem nodup_ofPairs (pairs : List (κ × α)) : ((ofPairs pairs).map (·.1)).Nodup := by
  induction pairs using List.reverseRecOn with
  | nil => exact List.nodup_nil
  | append_singleton pairs pair ih =>
      obtain ⟨key, value⟩ := pair
      rw [ofPairs_concat]
      by_cases known : key ∈ (ofPairs pairs).map (·.1)
      · rw [keys_put_of_mem known]
        exact ih
      · rw [put_of_notMem known, List.map_append]
        exact ih.append (List.nodup_singleton _) (by simpa using known)

theorem lookup_ofPairs [DecidableEq κ] (key : κ) (pairs : List (κ × α)) :
    (ofPairs pairs).lookup key = last? key pairs := by
  induction pairs using List.reverseRecOn with
  | nil => rfl
  | append_singleton pairs pair ih =>
      obtain ⟨other, value⟩ := pair
      rw [last?_concat, ofPairs_concat]
      by_cases same : other = key
      · rw [if_pos same, same, lookup_put_self]
      · rw [if_neg same, lookup_put_of_ne (Ne.symm same), ih]

/-- Where keys are distinct the last pair with a key is the only one. -/
theorem last?_of_nodup [DecidableEq κ] {pairs : List (κ × α)} (distinct : (pairs.map (·.1)).Nodup)
    (key : κ) : last? key pairs = pairs.lookup key := by
  rw [← lookup_ofPairs, ofPairs_of_nodup distinct]

/-- Making pairs distinct loses no last value. -/
theorem last?_ofPairs [DecidableEq κ] (key : κ) (pairs : List (κ × α)) :
    last? key (ofPairs pairs) = last? key pairs := by
  rw [last?_of_nodup (nodup_ofPairs pairs), lookup_ofPairs]

/-- The order of pairs with distinct keys makes no difference. -/
theorem lookup_eq_of_perm {pairs others : List (κ × α)} (perm : others.Perm pairs)
    (distinct : (pairs.map (·.1)).Nodup) (key : κ) : others.lookup key = pairs.lookup key := by
  induction perm with
  | nil => rfl
  | cons pair _ ih =>
      rw [List.map_cons, List.nodup_cons] at distinct
      rw [List.lookup_cons, List.lookup_cons, ih distinct.2]
  | swap first second rest =>
      obtain ⟨one, _⟩ := first
      obtain ⟨two, _⟩ := second
      simp only [List.map_cons, List.nodup_cons, List.mem_cons, not_or] at distinct
      simp only [List.lookup_cons]
      cases hfirst : key == one with
      | false => rfl
      | true =>
          have other : (key == two) = false := by
            rw [eq_of_beq hfirst]
            exact beq_false_of_ne distinct.1.1
          rw [other]
  | trans _ second ihFirst ihSecond =>
      rw [ihFirst ((second.map (·.1)).nodup_iff.mpr distinct), ihSecond distinct]

/-- Keys come in the order of their first pairs. -/
theorem keys_ofPairs (pairs : List (κ × α)) :
    (ofPairs pairs).map (·.1) = (pairs.map (·.1)).eraseDups := by
  induction pairs using List.reverseRecOn with
  | nil => rfl
  | append_singleton pairs pair ih =>
      obtain ⟨key, value⟩ := pair
      rw [ofPairs_concat, List.map_append, List.eraseDups_append, ← ih]
      by_cases known : key ∈ (ofPairs pairs).map (·.1)
      · have member : key ∈ pairs.map (·.1) := by rwa [ih, List.mem_eraseDups] at known
        rw [keys_put_of_mem known]
        simp [List.removeAll, member]
      · have fresh : key ∉ pairs.map (·.1) := by rwa [ih, List.mem_eraseDups] at known
        rw [put_of_notMem known, List.map_append]
        simp [List.removeAll, fresh, List.eraseDups_cons]

theorem lookup_eq_none_iff {key : κ} {pairs : List (κ × α)} :
    pairs.lookup key = none ↔ key ∉ pairs.map (·.1) := by
  induction pairs with
  | nil => simp
  | cons pair pairs ih =>
      obtain ⟨other, value⟩ := pair
      rw [List.lookup_cons, List.map_cons, List.mem_cons, not_or]
      by_cases same : key = other
      · simp [same]
      · rw [beq_false_of_ne same]
        simpa [same] using ih

/-- Putting a value that is there changes nothing. -/
theorem put_of_lookup {key : κ} {value : α} {all : List (κ × α)} (found : all.lookup key = some value) :
    put key value all = all := by
  induction all with
  | nil => cases found
  | cons pair all ih =>
      obtain ⟨other, there⟩ := pair
      rw [List.lookup_cons] at found
      by_cases same : other = key
      · rw [same, beq_self_eq_true] at found
        obtain rfl : there = value := Option.some.inj found
        rw [put, if_pos (beq_iff_eq.mpr same)]
      · rw [beq_false_of_ne (Ne.symm same)] at found
        rw [put, if_neg (by simpa using same), ih found]

/-- The values under distinct keys, in the order of the keys. -/
theorem values_eq_map {pairs : List (κ × α)} (distinct : (pairs.map (·.1)).Nodup) {f : κ → α}
    (found : ∀ key ∈ pairs.map (·.1), pairs.lookup key = some (f key)) :
    pairs.map (·.2) = (pairs.map (·.1)).map f := by
  induction pairs with
  | nil => rfl
  | cons pair pairs ih =>
      obtain ⟨first, value⟩ := pair
      rw [List.map_cons, List.nodup_cons] at distinct
      have hvalue : value = f first := by
        have hfirst := found first List.mem_cons_self
        rw [List.lookup_cons, beq_self_eq_true] at hfirst
        exact Option.some.inj hfirst
      have hrest : pairs.map (·.2) = (pairs.map (·.1)).map f := by
        apply ih distinct.2
        intro key member
        have other : key ≠ first := by
          rintro rfl
          exact distinct.1 member
        rw [← found key (List.mem_cons_of_mem _ member), List.lookup_cons, beq_false_of_ne other]
      simp only [List.map_cons, hrest, hvalue]

end BrowserSteps.Keyed
