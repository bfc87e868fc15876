import BrowserSteps.Proofs.Json.Within
import BrowserSteps.Proofs.Json.Token

/-!
Whole numbers beyond the digit limit. A text begins with one if it has that many digits in a row where
a number may stand, and neither a fraction nor an exponent makes it a binary64 number. Of all texts
that begin with no string, array or object, these alone are refused for their length.
-/

namespace BrowserSteps.Json

/-- What makes a whole number go on: another digit, a fraction or an exponent. -/
inductive GoesOn : List Char → Prop where
  | digit {c : Char} (digit : c.isDigit = true) (rest : List Char) : GoesOn (c :: rest)
  | fraction {c : Char} (digit : c.isDigit = true) (rest : List Char) : GoesOn ('.' :: c :: rest)
  | exponent {mark c : Char} {sign : List Char} (marks : mark = 'e' ∨ mark = 'E')
      (signs : sign = [] ∨ sign = ['+'] ∨ sign = ['-']) (digit : c.isDigit = true)
      (rest : List Char) : GoesOn (mark :: sign ++ c :: rest)

/-- A text begins with this many digits, more than are read, of a whole number without its sign. -/
structure LongDigits (digits : Nat) (whole rest : List Char) : Prop where
  all_digits : ∀ c ∈ whole, c.isDigit = true
  leading : whole.head? ≠ some '0'
  ends : ¬ GoesOn rest
  length : whole.length = digits
  long : Text.digitLimit < digits

/-- A text begins with a whole number of this many digits, more than are read. -/
def LongNumber (digits : Nat) (s : List Char) : Prop :=
  ∃ sign whole rest, s = sign ++ (whole ++ rest) ∧ (sign = [] ∨ sign = ['-']) ∧
    LongDigits digits whole rest

theorem LongDigits.exists_cons {digits : Nat} {whole rest : List Char}
    (h : LongDigits digits whole rest) :
    ∃ first more, whole = first :: more ∧ first.isDigit = true := by
  cases whole with
  | nil =>
      have empty : 0 = digits := h.length
      have long := h.long
      omega
  | cons first more => exact ⟨first, more, rfl, h.all_digits first List.mem_cons_self⟩

theorem splitFraction_of_not_goesOn {rest : List Char} (ends : ¬ GoesOn rest) :
    splitFraction rest = ([], rest) := by
  unfold splitFraction
  split
  next more =>
    cases more with
    | nil => rfl
    | cons c more =>
        have noDigit : c.isDigit = false :=
          Bool.eq_false_iff.mpr fun digit => ends (.fraction digit more)
        simp [noDigit]
  next => rfl

theorem splitSign_cases (s : List Char) :
    ∃ sign, (sign = [] ∨ sign = ['+'] ∨ sign = ['-']) ∧ s = sign ++ (Text.splitSign s).2 := by
  unfold Text.splitSign
  split
  · exact ⟨['-'], by simp, rfl⟩
  · exact ⟨['+'], by simp, rfl⟩
  · exact ⟨[], by simp, rfl⟩

theorem splitExponent_of_not_goesOn {rest : List Char} (ends : ¬ GoesOn rest) :
    splitExponent rest = (none, rest) := by
  unfold splitExponent
  split
  next mark more =>
    split
    next marks =>
      obtain ⟨sign, signs, heq⟩ := splitSign_cases more
      have noDigits : (Text.splitSign more).2.takeWhile Char.isDigit = [] := by
        cases hbody : (Text.splitSign more).2 with
        | nil => rfl
        | cons c tail =>
            refine List.takeWhile_cons_of_neg fun digit => ends ?_
            rw [heq, hbody]
            exact .exponent (by simpa using marks) signs digit tail
      simp [noDigits]
    next => rfl
  next => rfl

/-- A number that goes on is no whole number, or has more digits. -/
theorem parts_of_goesOn {rest : List Char} (h : GoesOn rest) :
    (∃ c ∈ rest.head?, c.isDigit = true) ∨ (splitFraction rest).1 ≠ [] ∨
      (splitExponent (splitFraction rest).2).1 ≠ none := by
  cases h with
  | @digit c digit rest => exact .inl ⟨c, rfl, digit⟩
  | fraction digit rest =>
      refine .inr (.inl ?_)
      simp [splitFraction, digit]
  | @exponent mark c sign marks signs digit rest =>
      refine .inr (.inr ?_)
      have hfraction : splitFraction (mark :: sign ++ c :: rest) =
          ([], mark :: sign ++ c :: rest) := by
        rcases marks with rfl | rfl <;> rfl
      have hsign : (Text.splitSign (sign ++ c :: rest)).2 = c :: rest := by
        rcases signs with rfl | rfl | rfl
        · have noSign : c ≠ '-' ∧ c ≠ '+' := ⟨ne_of_isDigit digit rfl, ne_of_isDigit digit rfl⟩
          simp [Text.splitSign, noSign]
        · rfl
        · rfl
      have hmark : (decide (mark = 'e') || decide (mark = 'E')) = true := by simpa using marks
      rw [hfraction]
      simp [splitExponent, hmark, hsign, digit]

theorem splitWhole_append (s : List Char) : (splitWhole s).1 ++ (splitWhole s).2 = s := by
  unfold splitWhole
  split
  · rfl
  · exact List.takeWhile_append_dropWhile

/-- A zero stands alone; other digits are all taken. -/
theorem splitWhole_cases (s : List Char) :
    (splitWhole s).1 = ['0'] ∨
      (splitWhole s).1.head? ≠ some '0' ∧ ∀ c ∈ (splitWhole s).2.head?, c.isDigit = false := by
  unfold splitWhole
  split
  · exact .inl rfl
  next other =>
    refine .inr ⟨fun leading => ?_, fun c head => ?_⟩
    · obtain ⟨more, hmore⟩ := List.head?_eq_some_iff.mp leading
      have hs : s.takeWhile Char.isDigit ++ s.dropWhile Char.isDigit = s :=
        List.takeWhile_append_dropWhile
      rw [show s.takeWhile Char.isDigit = '0' :: more from hmore] at hs
      exact other _ hs.symm
    · have hdropped := List.head?_dropWhile_not Char.isDigit s
      rw [show (s.dropWhile Char.isDigit).head? = some c from head] at hdropped
      simpa using hdropped

theorem splitWhole_of_longDigits {digits : Nat} {whole rest : List Char}
    (h : LongDigits digits whole rest) : splitWhole (whole ++ rest) = (whole, rest) := by
  have noDigit : ∀ c ∈ rest.head?, ¬ c.isDigit = true := by
    intro c head digit
    obtain ⟨more, rfl⟩ := List.head?_eq_some_iff.mp head
    exact h.ends (.digit digit more)
  have hrest : rest.takeWhile Char.isDigit = [] ∧ rest.dropWhile Char.isDigit = rest := by
    cases rest with
    | nil => exact ⟨rfl, rfl⟩
    | cons c rest =>
        have hc := noDigit c rfl
        exact ⟨List.takeWhile_cons_of_neg hc, List.dropWhile_cons_of_neg hc⟩
  have hsplit : splitWhole (whole ++ rest) =
      ((whole ++ rest).takeWhile Char.isDigit, (whole ++ rest).dropWhile Char.isDigit) := by
    obtain ⟨c, more, rfl, -⟩ := h.exists_cons
    have leading : c ≠ '0' := fun same => h.leading (by rw [same]; rfl)
    simp [splitWhole, leading]
  rw [hsplit, List.takeWhile_append_of_pos h.all_digits, List.dropWhile_append_of_pos h.all_digits,
    hrest.1, hrest.2, List.append_nil]

/-- A number is refused for its length exactly if the text begins with that many digits. -/
theorem readNumber_eq_long_iff {negative : Bool} {s : List Char} {digits : Nat} :
    readNumber negative s = .error (.longNumber digits) ↔
      ∃ whole rest, s = whole ++ rest ∧ LongDigits digits whole rest := by
  constructor
  · intro h
    refine ⟨(splitWhole s).1, (splitWhole s).2, (splitWhole_append s).symm, ?_⟩
    have all_digits := isDigit_of_mem_splitWhole s
    simp only [readNumber] at h
    split at h
    · cases h
    · split at h
      next plain =>
        split at h
        next long =>
          cases h
          obtain ⟨noFraction, noExponent⟩ := Bool.and_eq_true_iff.mp plain
          obtain ⟨leading, noDigit⟩ := (splitWhole_cases s).resolve_left fun zero => by
            rw [zero] at long
            exact absurd long (by decide)
          refine ⟨all_digits, leading, fun onward => ?_, rfl, long⟩
          rcases parts_of_goesOn onward with ⟨c, head, digit⟩ | fraction | exponent
          · exact Bool.false_ne_true ((noDigit c head).symm.trans digit)
          · exact fraction (List.isEmpty_iff.mp noFraction)
          · exact exponent (Option.isNone_iff_eq_none.mp noExponent)
        next => cases h
      next => cases h
  · rintro ⟨whole, rest, rfl, h⟩
    have nonempty : whole.isEmpty = false := by
      obtain ⟨first, more, rfl, -⟩ := h.exists_cons
      rfl
    simp [readNumber, splitWhole_of_longDigits h, nonempty, splitFraction_of_not_goesOn h.ends,
      splitExponent_of_not_goesOn h.ends, h.length, h.long]

theorem readAtom_eq_long_iff {s : List Char} {digits : Nat} :
    readAtom s = .error (.longNumber digits) ↔ LongNumber digits s := by
  constructor
  · intro h
    unfold readAtom at h
    split at h
    case h_7 rest _ =>
      obtain ⟨whole, rest, rfl, long⟩ := readNumber_eq_long_iff.mp h
      exact ⟨['-'], whole, rest, rfl, .inr rfl, long⟩
    case h_8 =>
      obtain ⟨whole, rest, rfl, long⟩ := readNumber_eq_long_iff.mp h
      exact ⟨[], whole, rest, rfl, .inl rfl, long⟩
    all_goals cases h
  · rintro ⟨sign, whole, rest, rfl, signs, long⟩
    have hnumber (negative : Bool) :
        readNumber negative (whole ++ rest) = .error (.longNumber digits) :=
      readNumber_eq_long_iff.mpr ⟨whole, rest, rfl, long⟩
    obtain ⟨first, more, rfl, digit⟩ := long.exists_cons
    rcases signs with rfl | rfl
    · exact (readAtom_digit digit (more ++ rest)).trans (hnumber false)
    · exact (readAtom_minus digit (more ++ rest)).trans (hnumber true)

end BrowserSteps.Json
