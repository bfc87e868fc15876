import BrowserSteps.Json.Printer
import BrowserSteps.Json.Reader
import Mathlib.Tactic.IntervalCases

/-!
Tokens that are read as they were written: a string comes back character by character, and a whole
number within the digit limit digit by digit, if what follows it goes on with no digit, no fraction
and no exponent.
-/

namespace BrowserSteps.Json

/-- How a character is written: behind a backslash, or as itself. -/
theorem escapeChar_cases (c : Char) :
    (∃ short, shortEscape? short = some c ∧ short ≠ 'u' ∧ escapeChar c = ['\\', short]) ∨
      c.toNat < 0x20 ∧ escapeChar c = '\\' :: 'u' :: Text.hexPadded 4 c.toNat ∨
      c ≠ '"' ∧ c ≠ '\\' ∧ ¬ c.toNat < 0x20 ∧ escapeChar c = [c] := by
  by_cases named : c = '"' ∨ c = '\\' ∨ c = '\n' ∨ c = '\r' ∨ c = '\t' ∨ c = '\x08' ∨ c = '\x0c'
  · rcases named with rfl | rfl | rfl | rfl | rfl | rfl | rfl
    · exact .inl ⟨'"', rfl, by decide, rfl⟩
    · exact .inl ⟨'\\', rfl, by decide, rfl⟩
    · exact .inl ⟨'n', rfl, by decide, rfl⟩
    · exact .inl ⟨'r', rfl, by decide, rfl⟩
    · exact .inl ⟨'t', rfl, by decide, rfl⟩
    · exact .inl ⟨'b', rfl, by decide, rfl⟩
    · exact .inl ⟨'f', rfl, by decide, rfl⟩
  · obtain ⟨quote, backslash, others⟩ := by simpa only [not_or] using named
    by_cases control : c.toNat < 0x20
    · exact .inr (.inl ⟨control, by simp [escapeChar, quote, backslash, others, control]⟩)
    · exact .inr (.inr ⟨quote, backslash, control,
        by simp [escapeChar, quote, backslash, others, control]⟩)

theorem hexQuad?_hexPadded {n : Nat} (control : n < 0x20) (rest : List Char) :
    hexQuad? (Text.hexPadded 4 n ++ rest) = some (n, rest) := by
  interval_cases n <;> rfl

/-- Each character is read from what stands for it. -/
theorem stringPiece?_escapeChar (c : Char) (rest : List Char) :
    stringPiece? (escapeChar c ++ rest) = some (.char c, rest) := by
  rcases escapeChar_cases c with ⟨short, hshort, notU, heq⟩ | ⟨control, heq⟩ |
    ⟨quote, backslash, plain, heq⟩
  · rw [heq, List.cons_append, List.singleton_append, stringPiece?]
    · rw [hshort]
      rfl
    · exact notU
  · have single : isHighSurrogate c.toNat = false ∧ isLowSurrogate c.toNat = false := by
      simp only [isHighSurrogate, isLowSurrogate, Bool.and_eq_false_imp, decide_eq_true_eq]
      omega
    rw [heq]
    simp [stringPiece?, hexQuad?_hexPadded control, single, pieceOfUnit]
  · rw [heq, List.singleton_append]
    simp [stringPiece?, backslash, plain]

/-- What is written of a character begins with no quotation mark. -/
theorem head_escapeChar_ne_quote (c : Char) (rest : List Char) :
    ∃ first more, escapeChar c ++ rest = first :: more ∧ first ≠ '"' := by
  rcases escapeChar_cases c with ⟨short, -, -, heq⟩ | ⟨-, heq⟩ | ⟨quote, -, -, heq⟩
  · exact ⟨'\\', short :: rest, by rw [heq]; rfl, by decide⟩
  · exact ⟨'\\', 'u' :: (Text.hexPadded 4 c.toNat ++ rest), by rw [heq]; rfl, by decide⟩
  · exact ⟨c, rest, by rw [heq]; rfl, quote⟩

theorem length_le_escaped (s : List Char) : s.length ≤ (s.flatMap escapeChar).length := by
  induction s with
  | nil => exact Nat.le_refl 0
  | cons c s ih =>
      obtain ⟨first, more, heq, -⟩ := head_escapeChar_ne_quote c []
      have hlength := congrArg List.length heq
      simp only [List.append_nil, List.length_cons] at hlength
      simp only [List.flatMap_cons, List.length_append, List.length_cons]
      omega

theorem stringBody?_escaped (s rest : List Char) {bound : Nat} (enough : s.length < bound) :
    stringBody? bound (s.flatMap escapeChar ++ '"' :: rest) = some (s.map .char, rest) := by
  induction s generalizing bound with
  | nil =>
      obtain ⟨bound, rfl⟩ := Nat.exists_eq_add_one_of_ne_zero (Nat.ne_of_gt enough)
      rfl
  | cons c s ih =>
      obtain ⟨bound, rfl⟩ := Nat.exists_eq_add_one_of_ne_zero (Nat.ne_zero_of_lt enough)
      obtain ⟨first, more, heq, notQuote⟩ :=
        head_escapeChar_ne_quote c (s.flatMap escapeChar ++ '"' :: rest)
      have hchar := stringPiece?_escapeChar c (s.flatMap escapeChar ++ '"' :: rest)
      have hrest := ih (Nat.lt_of_succ_lt_succ enough)
      rw [List.flatMap_cons, List.append_assoc]
      rw [heq] at hchar ⊢
      rw [stringBody?, hchar]
      · simp only [hrest, Option.map_some, List.map_cons]
      · exact fun _ same => notQuote (List.cons.inj same).1

/-- A string is read from its text, whatever follows it. -/
theorem readString_stringText (s : String) (rest : List Char) :
    readString (s.toList.flatMap escapeChar ++ '"' :: rest) = .ok (s.toList.map .char, rest) := by
  have hlength := length_le_escaped s.toList
  have enough : s.toList.length < (s.toList.flatMap escapeChar ++ '"' :: rest).length + 1 := by
    rw [List.length_append]
    omega
  rw [readString, stringBody?_escaped _ _ enough]

/-- Characters make up the text of them. -/
theorem text?_chars (s : List Char) : text? (s.map .char) = some (String.ofList s) := by
  have hchars : (s.map Piece.char).mapM Piece.char? = some s := by
    induction s with
    | nil => rfl
    | cons c s ih => simp only [List.map_cons, List.mapM_cons, ih, Piece.char?]; rfl
  rw [text?, hchars, Option.map_some]

@[simp] theorem ofPieces_chars (s : String) : ofPieces (s.toList.map .char) = .str s := by
  rw [ofPieces, text?_chars, String.ofList_toList]

@[simp] theorem member_chars (key : String) (value : Json) :
    member (key.toList.map .char) value = [(key, value)] := by
  rw [member, text?_chars, String.ofList_toList]
  rfl

/-- The number before a text ends there. -/
def EndsNumber (rest : List Char) : Prop :=
  ∀ c ∈ rest.head?, c.isDigit = false ∧ c ≠ '.' ∧ c ≠ 'e' ∧ c ≠ 'E'

theorem EndsNumber.span_digits {rest : List Char} (ends : EndsNumber rest) :
    rest.takeWhile Char.isDigit = [] ∧ rest.dropWhile Char.isDigit = rest := by
  cases rest with
  | nil => exact ⟨rfl, rfl⟩
  | cons c rest =>
      obtain ⟨noDigit, -⟩ := ends c rfl
      simp [noDigit]

theorem EndsNumber.splitFraction {rest : List Char} (ends : EndsNumber rest) :
    splitFraction rest = ([], rest) := by
  cases rest with
  | nil => rfl
  | cons c rest =>
      obtain ⟨-, noPoint, -⟩ := ends c rfl
      simp [Json.splitFraction, noPoint]

theorem EndsNumber.splitExponent {rest : List Char} (ends : EndsNumber rest) :
    splitExponent rest = (none, rest) := by
  cases rest with
  | nil => rfl
  | cons c rest =>
      obtain ⟨-, -, noSmall, noLarge⟩ := ends c rfl
      simp [Json.splitExponent, noSmall, noLarge]

theorem digitsValue_toDigits (n : Nat) : digitsValue (Nat.toDigits 10 n) = n := by
  rw [digitsValue, Text.ofDigits, List.foldl_map, ← Nat.ofDigitChars_eq_foldl]
  exact Nat.ofDigitChars_ten_toDigits

theorem isDigit_of_mem_toDigits {n : Nat} : ∀ c ∈ Nat.toDigits 10 n, c.isDigit = true :=
  fun _ => Nat.isDigit_of_mem_toDigits (by decide) (by decide)

/-- A number begins with a digit, which is no zero unless the number is. -/
theorem toDigits_eq_cons (n : Nat) :
    ∃ first more, Nat.toDigits 10 n = first :: more ∧ first.isDigit = true ∧
      (0 < n → first ≠ '0') := by
  induction n using Nat.strongRecOn with
  | ind n ih =>
      rw [Nat.toDigits_eq_if (by decide)]
      split
      next single =>
        refine ⟨n.digitChar, [], rfl, ?_⟩
        interval_cases n <;> decide
      next more =>
        obtain ⟨first, others, heq, digit, leading⟩ := ih (n / 10) (by omega)
        exact ⟨first, _, by rw [heq]; rfl, digit, fun _ => leading (by omega)⟩

theorem splitWhole_toDigits (n : Nat) {rest : List Char} (ends : EndsNumber rest) :
    splitWhole (Nat.toDigits 10 n ++ rest) = (Nat.toDigits 10 n, rest) := by
  rcases Nat.eq_zero_or_pos n with rfl | positive
  · rw [Nat.toDigits_zero]
    rfl
  · obtain ⟨first, more, heq, -, leading⟩ := toDigits_eq_cons n
    have hsplit : splitWhole (Nat.toDigits 10 n ++ rest) =
        ((Nat.toDigits 10 n ++ rest).takeWhile Char.isDigit,
          (Nat.toDigits 10 n ++ rest).dropWhile Char.isDigit) := by
      rw [heq]
      simp [splitWhole, leading positive]
    rw [hsplit, List.takeWhile_append_of_pos isDigit_of_mem_toDigits,
      List.dropWhile_append_of_pos isDigit_of_mem_toDigits, ends.span_digits.1,
      ends.span_digits.2, List.append_nil]

/-- A whole number within the digit limit is read from its digits. -/
theorem readNumber_toDigits (negative : Bool) {n : Nat} (small : n < 10 ^ Text.digitLimit)
    {rest : List Char} (ends : EndsNumber rest) :
    readNumber negative (Nat.toDigits 10 n ++ rest) =
      .ok (.int (if negative then -n else n), rest) := by
  have short : ¬ Text.digitLimit < (Nat.toDigits 10 n).length := by
    rw [Nat.not_lt, Nat.length_toDigits_le_iff (by decide) (by decide)]
    exact small
  have nonempty : (Nat.toDigits 10 n).isEmpty = false :=
    List.isEmpty_eq_false_iff.mpr Nat.toDigits_ne_nil
  simp [readNumber, splitWhole_toDigits n ends, nonempty, ends.splitFraction, ends.splitExponent,
    short, digitsValue_toDigits]

theorem toList_toString_int (n : Int) :
    (toString n).toList =
      if 0 ≤ n then Nat.toDigits 10 n.natAbs else '-' :: Nat.toDigits 10 n.natAbs := by
  rw [Int.toString_eq_repr, Int.repr_eq_if]
  split
  next nonnegative =>
    rw [Nat.repr_eq_ofList_toDigits, String.toList_ofList]
    congr 1
    omega
  next negative =>
    have habs : (-n).toNat = n.natAbs := by omega
    rw [String.toList_append, habs, Nat.repr_eq_ofList_toDigits]
    exact congrArg ('-' :: ·) String.toList_ofList

theorem ne_of_isDigit {c d : Char} (digit : c.isDigit = true) (other : d.isDigit = false) : c ≠ d := by
  rintro rfl
  exact Bool.false_ne_true (other.symm.trans digit)

theorem readAtom_digit {first : Char} (digit : first.isDigit = true) (more : List Char) :
    readAtom (first :: more) = readNumber false (first :: more) := by
  have hne {c : Char} (other : c.isDigit = false) : first ≠ c := ne_of_isDigit digit other
  simp [readAtom, hne (c := 'n') rfl, hne (c := 't') rfl, hne (c := 'f') rfl, hne (c := 'N') rfl,
    hne (c := 'I') rfl, hne (c := '-') rfl]

theorem readAtom_minus {first : Char} (digit : first.isDigit = true) (more : List Char) :
    readAtom ('-' :: first :: more) = readNumber true (first :: more) := by
  have notWord : first ≠ 'I' := ne_of_isDigit digit rfl
  simp [readAtom, notWord]

theorem readAtom_int {n : Int} (small : n.natAbs < 10 ^ Text.digitLimit) {rest : List Char}
    (ends : EndsNumber rest) : readAtom ((toString n).toList ++ rest) = .ok (.int n, rest) := by
  obtain ⟨first, more, heq, digit, -⟩ := toDigits_eq_cons n.natAbs
  have hread (negative : Bool) := readNumber_toDigits negative small ends
  rw [toList_toString_int]
  rw [heq] at hread ⊢
  split
  next nonnegative =>
    rw [List.cons_append, readAtom_digit digit, ← List.cons_append, hread]
    simp [Int.natAbs_of_nonneg nonnegative]
  next negative =>
    rw [List.cons_append, List.cons_append, readAtom_minus digit, ← List.cons_append, hread]
    have habs : (n.natAbs : Int) = -n := by omega
    rw [if_pos rfl, habs, Int.neg_neg]

end BrowserSteps.Json
