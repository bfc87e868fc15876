import BrowserSteps.Pattern.Replace

/-!
Replacing a word. The replacement goes through a text from left to right: where the word begins it is
replaced and the text goes on behind it, and any other character stays.
-/

namespace BrowserSteps.Pattern

variable {word : List Char} (value : List Char)

/-- Bounds beyond the length of the text make no difference. -/
theorem replaceWordFrom_of_le (nonempty : word ≠ []) {bound other : Nat} {text : List Char}
    (enough : text.length ≤ bound) (enough_other : text.length ≤ other) :
    replaceWordFrom word value bound text = replaceWordFrom word value other text := by
  induction bound generalizing other text with
  | zero =>
      obtain rfl := List.length_eq_zero_iff.mp (Nat.le_zero.mp enough)
      cases other <;> rfl
  | succ bound ih =>
      cases text with
      | nil => cases other <;> rfl
      | cons c rest =>
          obtain ⟨other, rfl⟩ := Nat.exists_eq_add_one_of_ne_zero
            (Nat.ne_zero_of_lt (Nat.lt_of_lt_of_le (Nat.succ_pos _) enough_other))
          simp only [List.length_cons, Nat.add_le_add_iff_right] at enough enough_other
          have hdrop : ((c :: rest).drop word.length).length ≤ rest.length := by
            have := List.length_pos_iff.mpr nonempty
            rw [List.length_drop, List.length_cons]
            omega
          rw [replaceWordFrom, replaceWordFrom, ih enough enough_other,
            ih (Nat.le_trans hdrop enough) (Nat.le_trans hdrop enough_other)]

theorem replaceWord_nil (nonempty : word ≠ []) : replaceWord word value [] = [] := by
  simp [replaceWord, nonempty, replaceWordFrom]

/-- A word at the beginning is replaced. -/
theorem replaceWord_word (nonempty : word ≠ []) (rest : List Char) :
    replaceWord word value (word ++ rest) = value ++ replaceWord word value rest := by
  obtain ⟨c, tail, rfl⟩ := List.exists_cons_of_ne_nil nonempty
  have hprefix : (c :: tail).isPrefixOf (c :: (tail ++ rest)) = true :=
    List.isPrefixOf_iff_prefix.mpr (List.prefix_append _ _)
  have hdrop : (c :: (tail ++ rest)).drop (c :: tail).length = rest := List.drop_left
  have hrest : rest.length ≤ (tail ++ rest).length := by simp
  simp only [replaceWord, List.isEmpty_cons, Bool.false_eq_true, if_false, List.cons_append,
    List.length_cons, replaceWordFrom, hprefix, if_true]
  rw [← List.length_cons, hdrop, replaceWordFrom_of_le value nonempty hrest (Nat.le_refl _)]

/-- A character at which no word begins stays. -/
theorem replaceWord_cons {c : Char} {rest : List Char} (noWord : ¬ word <+: c :: rest) :
    replaceWord word value (c :: rest) = c :: replaceWord word value rest := by
  have nonempty : word.isEmpty = false := by
    cases word with
    | nil => exact absurd List.nil_prefix noWord
    | cons => rfl
  have hprefix : word.isPrefixOf (c :: rest) = false := by
    simpa [← Bool.not_eq_true, List.isPrefixOf_iff_prefix] using noWord
  simp [replaceWord, nonempty, replaceWordFrom, hprefix]

end BrowserSteps.Pattern
