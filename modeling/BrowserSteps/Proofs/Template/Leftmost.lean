import BrowserSteps.Proofs.Pattern.Literal
import BrowserSteps.Template.Substitution

/-!
The places at which a key is replaced. They are found from left to right: the first place at which the key
stands, then the first behind it that does not overlap with it, and so on to the end of the text. The empty
key stands before every character and at the end.
-/

namespace BrowserSteps.Pattern

/-- A word stands in a text behind so many characters. -/
def StandsAt (word text : List Char) (i : Nat) : Prop := i ≤ text.length ∧ word <+: text.drop i

/-- The places that one finds who looks for a word from left to right, from a place on. Behind a place one
goes on after the word, and after one character at least. -/
inductive Found (word text : List Char) : Nat → List Nat → Prop where
  | none {i : Nat} (nowhere : ∀ k, i ≤ k → ¬ StandsAt word text k) : Found word text i []
  | next {i j : Nat} {places : List Nat} (le : i ≤ j) (here : StandsAt word text j)
      (first : ∀ k, i ≤ k → k < j → ¬ StandsAt word text k)
      (more : Found word text (j + max word.length 1) places) : Found word text i (j :: places)

/-- A text from a place on, with a value for so many characters at each of some places. -/
def replacedAt (width : Nat) (value text : List Char) : Nat → List Nat → List Char
  | i, [] => text.drop i
  | i, j :: places =>
    (text.drop i).take (j - i) ++ value ++ replacedAt width value text (j + width) places

variable {word text : List Char} {i : Nat} {places : List Nat}

/-- Behind a character the rest of the text begins. -/
theorem drop_succ_of_cons {c : Char} {rest : List Char} (ahead : text.drop i = c :: rest) :
    text.drop (i + 1) = rest ∧ i + 1 ≤ text.length := by
  constructor
  · rw [← List.tail_drop, ahead]
    rfl
  · have hlength := congrArg List.length ahead
    rw [List.length_drop, List.length_cons] at hlength
    omega

/-- The places are determined. -/
theorem Found.unique (h : Found word text i places) {others : List Nat}
    (other : Found word text i others) : others = places := by
  induction h generalizing others with
  | none nowhere =>
      cases other with
      | none => rfl
      | next le here => exact absurd here (nowhere _ le)
  | @next i j places le here first more ih =>
      cases other with
      | none nowhere => exact absurd here (nowhere j le)
      | @next _ k _ le' here' first' more' =>
          have notBefore : ¬ k < j := fun before => first k le' before here'
          have notBehind : ¬ j < k := fun behind => first' j le behind here
          obtain rfl : k = j := by omega
          rw [ih more']

/-- Where the word does not stand, the search goes on with the next place. -/
theorem Found.of_succ (elsewhere : ¬ StandsAt word text i) (h : Found word text (i + 1) places) :
    Found word text i places := by
  have later {k : Nat} (le : i ≤ k) (here : StandsAt word text k) : i + 1 ≤ k := by
    apply Nat.lt_of_le_of_ne le
    rintro rfl
    exact elsewhere here
  cases h with
  | none nowhere => exact .none fun k le here => nowhere k (later le here) here
  | next le here first more =>
      apply Found.next (Nat.le_of_succ_le le) here _ more
      intro k le before stands
      exact first k (later le stands) before stands

/-- Before the first place the text stays as it is. -/
theorem Found.replacedAt_succ (h : Found word text (i + 1) places) {c : Char} {rest : List Char}
    (ahead : text.drop i = c :: rest) (width : Nat) (value : List Char) :
    replacedAt width value text i places = c :: replacedAt width value text (i + 1) places := by
  obtain ⟨hdrop, -⟩ := drop_succ_of_cons ahead
  cases h with
  | none => rw [replacedAt, replacedAt, ahead, hdrop]
  | @next _ j _ le =>
      have hcount : j - i = j - (i + 1) + 1 := by omega
      rw [replacedAt, replacedAt, ahead, hdrop, hcount]
      rfl

/-- At a place of its own the value comes at once. -/
theorem replacedAt_here (width : Nat) (value text : List Char) (i : Nat) (places : List Nat) :
    replacedAt width value text i (i :: places) =
      value ++ replacedAt width value text (i + width) places := by
  rw [replacedAt, Nat.sub_self, List.take_zero]
  rfl

/-- Replacing a word that is not empty: the places that a search finds from a place on, and the value at
each of them. -/
theorem found_replaceWord_of_ne_nil (nonempty : word ≠ []) (value : List Char) {ahead : List Char}
    (here : text.drop i = ahead) (within : i ≤ text.length) :
    ∃ places, Found word text i places ∧
      replaceWord word value ahead = replacedAt word.length value text i places := by
  have positive := List.length_pos_iff.mpr nonempty
  -- By the length of what is ahead, since the search goes on behind a word.
  induction hlength : ahead.length using Nat.strongRecOn generalizing ahead i with
  | ind n ih =>
      subst hlength
      by_cases begins : word <+: ahead
      · obtain ⟨rest, rfl⟩ := begins
        have hrest : text.drop (i + word.length) = rest := by
          rw [← List.drop_drop, here]
          exact List.drop_left
        have hahead := congrArg List.length here
        rw [List.length_drop, List.length_append] at hahead
        have shorter : rest.length < (word ++ rest).length := by
          rw [List.length_append]
          omega
        obtain ⟨places, found, replaced⟩ := ih _ shorter hrest (by omega) rfl
        have hwidth : max word.length 1 = word.length := Nat.max_eq_left positive
        refine ⟨i :: places, ?_, ?_⟩
        · apply Found.next (Nat.le_refl i) ⟨within, here ▸ List.prefix_append _ _⟩
          · intro k le before
            omega
          · rw [hwidth]
            exact found
        · rw [replaceWord_word value nonempty, replaced, replacedAt_here]
      · cases ahead with
        | nil =>
            refine ⟨[], .none ?_, ?_⟩
            · rintro k le ⟨-, stands⟩
              have hnil : text.drop k = [] := by
                have behind := List.drop_eq_nil_iff.mp here
                exact List.drop_eq_nil_iff.mpr (Nat.le_trans behind le)
              rw [hnil, List.prefix_nil] at stands
              exact nonempty stands
            · rw [replaceWord_nil value nonempty, replacedAt, here]
        | cons c rest =>
            obtain ⟨hrest, bound⟩ := drop_succ_of_cons here
            obtain ⟨places, found, replaced⟩ := ih _ (Nat.lt_succ_self _) hrest bound rfl
            refine ⟨places, found.of_succ ?_, ?_⟩
            · rintro ⟨-, stands⟩
              rw [here] at stands
              exact begins stands
            · rw [replaceWord_cons value begins, replaced, found.replacedAt_succ here]

/-- The empty word is found before each character ahead and at the end. -/
theorem found_interleave (value : List Char) {ahead : List Char} (here : text.drop i = ahead)
    (within : i ≤ text.length) :
    ∃ places, Found [] text i (i :: places) ∧
      interleave value ahead = replacedAt 0 value text i (i :: places) := by
  have stands {i : Nat} (within : i ≤ text.length) : StandsAt [] text i := ⟨within, List.nil_prefix⟩
  have first (i k : Nat) (le : i ≤ k) (before : k < i) : ¬ StandsAt [] text k := by omega
  induction ahead generalizing i with
  | nil =>
      have behind := List.drop_eq_nil_iff.mp here
      refine ⟨[], .next (Nat.le_refl i) (stands within) (first i) (.none ?_), ?_⟩
      · rintro k le ⟨bound, -⟩
        simp only [List.length_nil, Nat.zero_max] at le
        omega
      · rw [replacedAt_here, replacedAt, Nat.add_zero, here, List.append_nil, interleave]
  | cons c rest ih =>
      obtain ⟨hrest, bound⟩ := drop_succ_of_cons here
      obtain ⟨places, found, replaced⟩ := ih hrest bound
      refine ⟨(i + 1) :: places, .next (Nat.le_refl i) (stands within) (first i) found, ?_⟩
      calc interleave value (c :: rest)
        _ = value ++ c :: replacedAt 0 value text (i + 1) ((i + 1) :: places) := by
          rw [interleave, replaced]
        _ = value ++ replacedAt 0 value text i ((i + 1) :: places) := by
          rw [found.replacedAt_succ here]
        _ = replacedAt 0 value text i (i :: (i + 1) :: places) := (replacedAt_here 0 value text i _).symm

/-- Replacing a word puts the value in the places that a search from left to right finds. -/
theorem found_replaceWord (word value text : List Char) :
    ∃ places, Found word text 0 places ∧
      replaceWord word value text = replacedAt word.length value text 0 places := by
  by_cases empty : word = []
  · subst empty
    have whole : text.drop 0 = text := List.drop_zero
    obtain ⟨places, found, replaced⟩ := found_interleave value whole (Nat.zero_le _)
    exact ⟨0 :: places, found, replaced⟩
  · exact found_replaceWord_of_ne_nil empty value List.drop_zero (Nat.zero_le _)

end BrowserSteps.Pattern

namespace BrowserSteps.Template

open Pattern (isSign Found replacedAt replaceWord)

/-- A key without signs is read as a pattern, and this pattern replaces what replacing the word does: the
places at which the key is found from left to right, and nothing else. Signs in the value mean nothing. -/
theorem substitute_one_key {key : String} (noSign : ∀ c ∈ key.toList, isSign c = false)
    (value text : String) :
    let filled := replaceWord key.toList value.toList text.toList
    substitute text [(key, value)] = .ok (String.ofList filled) ∧
      (∃ pattern, Pattern.read key = .ok pattern ∧
        pattern.replaceAll value.toList text.toList = filled) ∧
      ∃ places, Found key.toList text.toList 0 places ∧
        (∀ others, Found key.toList text.toList 0 others → others = places) ∧
        filled = replacedAt key.toList.length value.toList text.toList 0 places := by
  intro filled
  have hread := Pattern.read_of_noSign noSign
  have hreplaced := Pattern.replaceAll_word key.toList value.toList text.toList
  obtain ⟨places, found, replaced⟩ :=
    Pattern.found_replaceWord key.toList value.toList text.toList
  refine ⟨?_, ⟨_, hread, hreplaced⟩, places, found, fun _ other => found.unique other, replaced⟩
  have hkey : substituteKey key value text = .ok (String.ofList filled) := by
    simp only [substituteKey, hread, hreplaced]
    rfl
  rw [substitute, hkey]
  rfl

/-- Of overlapping occurrences the first is replaced, and a value like a reference to a group is only text. -/
theorem substitute_overlapping_key :
    (∀ c ∈ "aba".toList, isSign c = false) ∧ (∀ c ∈ "".toList, isSign c = false) ∧
      substitute "ababa aba" [("aba", "\\1")] = .ok "\\1ba \\1" ∧
      substitute "ab" [("", "\\g<0>")] = .ok "\\g<0>a\\g<0>b\\g<0>" := by
  have noSign : ∀ c ∈ "aba".toList, isSign c = false := by simp [isSign]
  have noSignAtAll : ∀ c ∈ "".toList, isSign c = false := by simp
  have filled : replaceWord "aba".toList "\\1".toList "ababa aba".toList = "\\1ba \\1".toList := by
    decide
  refine ⟨noSign, noSignAtAll, ?_, (substitute_one_key noSignAtAll "\\g<0>" "ab").1⟩
  rw [(substitute_one_key noSign "\\1" "ababa aba").1, filled, String.ofList_toList]

end BrowserSteps.Template
