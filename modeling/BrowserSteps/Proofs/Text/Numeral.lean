import BrowserSteps.Text.Numeral
import Mathlib.Tactic.ByContra

/-!
The texts that are read as whole numbers: a sign or none, and decimal digits of any script with single
underscores between some of them, of which there may be only so many. Digits that stand in no
positional numeral are not read, so a text of digits alone may be no number, and a number may be
written with more than digits.
-/

namespace BrowserSteps.Text

theorem dropWhile_dropWhile {p q : Char → Bool} (sub : ∀ c, q c → p c) (s : List Char) :
    (s.dropWhile p).dropWhile q = s.dropWhile p := by
  induction s with
  | nil => rfl
  | cons c s ih =>
      cases hp : p c with
      | true => simpa [hp] using ih
      | false =>
          have hq : q c = false := by
            apply Bool.eq_false_iff.mpr
            intro hq
            exact absurd (sub c hq) (by simp [hp])
          simp [hp, hq]

/-- Trimming leaves nothing to be trimmed of a smaller class. -/
theorem trimBy_trimBy {p q : Char → Bool} (sub : ∀ c, q c → p c) (s : List Char) :
    trimBy q (trimBy p s) = trimBy p s := by
  have hback : ((s.dropWhile p).reverse.dropWhile p).dropWhile q =
      (s.dropWhile p).reverse.dropWhile p := dropWhile_dropWhile sub _
  have hfront : (trimBy p s).dropWhile q = trimBy p s := by
    obtain ⟨dropped, hsplit⟩ := List.dropWhile_suffix p (l := (s.dropWhile p).reverse)
    have hprefix : trimBy p s ++ dropped.reverse = s.dropWhile p := by
      rw [trimBy, ← List.reverse_append, hsplit, List.reverse_reverse]
    cases htrimmed : trimBy p s with
    | nil => rfl
    | cons c rest =>
        have hkept := dropWhile_dropWhile sub s
        rw [← hprefix, htrimmed] at hkept
        cases hq : q c with
        | false => simp [hq]
        | true =>
            have hlength := congrArg List.length hkept
            have hshorter := (List.dropWhile_suffix q (l := rest ++ dropped.reverse)).length_le
            simp only [List.cons_append, List.dropWhile_cons, hq, if_true,
              List.length_cons] at hlength
            omega
  rw [trimBy, hfront]
  simp only [trimBy, List.reverse_reverse, hback]

/-- Decimal digits with single underscores between some of them, and the values of the digits. -/
inductive Grouped : List Char → List Nat → Prop where
  | last {c : Char} {d : Nat} (value : decimalValue? c = some d) : Grouped [c] [d]
  | next {c : Char} {d : Nat} {rest : List Char} {ds : List Nat}
      (value : decimalValue? c = some d) (more : Grouped rest ds) : Grouped (c :: rest) (d :: ds)
  | apart {c : Char} {d : Nat} {rest : List Char} {ds : List Nat}
      (value : decimalValue? c = some d) (more : Grouped rest ds) :
      Grouped (c :: '_' :: rest) (d :: ds)

theorem decimalValue?_underscore : decimalValue? '_' = none := by decide

/-- Digits do not begin with an underscore. -/
theorem Grouped.exists_cons {s : List Char} {ds : List Nat} (h : Grouped s ds) :
    ∃ c rest, s = c :: rest ∧ c ≠ '_' := by
  have digit {c : Char} {d : Nat} (value : decimalValue? c = some d) : c ≠ '_' := by
    rintro rfl
    cases decimalValue?_underscore.symm.trans value
  cases h with
  | last value | next value | apart value => exact ⟨_, _, rfl, digit value⟩

theorem digitRun?_eq_some_iff {s : List Char} {ds : List Nat} :
    digitRun? s = some ds ↔ Grouped s ds := by
  constructor
  · intro h
    fun_induction digitRun? s generalizing ds with
    | case1 => cases h
    | case2 c =>
        obtain ⟨d, value, rfl⟩ := Option.map_eq_some_iff.mp h
        exact .last value
    | case3 c rest ih =>
        simp only [Option.bind_eq_bind, Option.bind_eq_some_iff, Option.pure_def,
          Option.some.injEq] at h
        obtain ⟨d, value, more, read, rfl⟩ := h
        exact .apart value (ih read)
    | case4 c rest nonempty plain ih =>
        simp only [Option.bind_eq_bind, Option.bind_eq_some_iff, Option.pure_def,
          Option.some.injEq] at h
        obtain ⟨d, value, more, read, rfl⟩ := h
        exact .next value (ih read)
  · intro h
    induction h with
    | last value => simp [digitRun?, value]
    | apart value more ih => simp [digitRun?, value, ih]
    | next value more ih =>
        obtain ⟨c, rest, rfl, plain⟩ := more.exists_cons
        simp [digitRun?, value, ih, plain]

/-- A whole number as it is written. -/
inductive Numeral : List Char → Int → Prop where
  | plain {body : List Char} {ds : List Nat} (digits : Grouped body ds)
      (short : ds.length ≤ digitLimit) : Numeral body (ofDigits ds : Nat)
  | plus {body : List Char} {ds : List Nat} (digits : Grouped body ds)
      (short : ds.length ≤ digitLimit) : Numeral ('+' :: body) (ofDigits ds : Nat)
  | minus {body : List Char} {ds : List Nat} (digits : Grouped body ds)
      (short : ds.length ≤ digitLimit) : Numeral ('-' :: body) (-(ofDigits ds : Nat))

theorem Grouped.splitSign {s : List Char} {ds : List Nat} (h : Grouped s ds) :
    Text.splitSign s = (false, s) := by
  have digit {c : Char} {d : Nat} (value : decimalValue? c = some d) : c ≠ '-' ∧ c ≠ '+' := by
    constructor <;> (rintro rfl; cases value)
  cases h with
  | last value | next value | apart value => simp [Text.splitSign, digit value]

theorem readInteger_cases {s : String} {n : Int} : readInteger s = .ok n ↔
    ∃ ds, Grouped (splitSign (trimBy isWhite s.toList)).2 ds ∧ ds.length ≤ digitLimit ∧
      n = if (splitSign (trimBy isWhite s.toList)).1 then -((ofDigits ds : Nat) : Int)
        else (ofDigits ds : Nat) := by
  simp only [readInteger, ← digitRun?_eq_some_iff]
  cases digitRun? (splitSign (trimBy isWhite s.toList)).2 with
  | none => simp
  | some ds =>
      simp only [Option.some.injEq, exists_eq_left']
      split
      next long => exact ⟨nofun, fun ⟨short, _⟩ => absurd short (Nat.not_le.mpr long)⟩
      next short =>
        rw [Except.ok.injEq, eq_comm]
        exact (and_iff_right (Nat.not_lt.mp short)).symm

/-- What is read is what is written, if there is no white space around it. -/
theorem readInteger_eq_ok_iff {s : String} (bare : trimBy isWhite s.toList = s.toList) {n : Int} :
    readInteger s = .ok n ↔ Numeral s.toList n := by
  rw [readInteger_cases, bare]
  generalize s.toList = text
  constructor
  · rintro ⟨ds, digits, short, rfl⟩
    revert digits
    fun_cases splitSign text with
    | case1 rest => exact fun digits => .minus digits short
    | case2 rest => exact fun digits => .plus digits short
    | case3 => exact fun digits => .plain digits short
  · intro h
    cases h with
    | plain digits short =>
        rw [digits.splitSign]
        exact ⟨_, digits, short, rfl⟩
    | plus digits short | minus digits short => exact ⟨_, digits, short, rfl⟩

theorem readInteger_trim_eq_ok_iff {s : String} {n : Int} :
    readInteger (trim s) = .ok n ↔ Numeral (trim s).toList n := by
  apply readInteger_eq_ok_iff
  rw [trim, String.toList_ofList]
  apply trimBy_trimBy
  intro c white
  exact (Bool.and_eq_true_iff.mp white).1

/-- Digits of any kind, and at least one. -/
def IsDigits (text : List Char) : Prop := text ≠ [] ∧ ∀ c ∈ text, isDigit c = true

/-- A text that holds a sign or an underscore. -/
def Marked (text : List Char) : Prop := '+' ∈ text ∨ '-' ∈ text ∨ '_' ∈ text

theorem Grouped.decimal_or_underscore {s : List Char} {ds : List Nat} (h : Grouped s ds) :
    ∀ c ∈ s, isDecimal c = true ∨ c = '_' := by
  have digit {c : Char} {d : Nat} (value : decimalValue? c = some d) : isDecimal c = true :=
    Option.isSome_iff_exists.mpr ⟨d, value⟩
  induction h with
  | last value => simpa using .inl (digit value)
  | next value _ ih => exact List.forall_mem_cons.mpr ⟨.inl (digit value), ih⟩
  | apart value _ ih =>
      exact List.forall_mem_cons.mpr ⟨.inl (digit value), List.forall_mem_cons.mpr ⟨.inr rfl, ih⟩⟩

/-- Without underscores there is a digit for each character. -/
theorem Grouped.length_eq {s : List Char} {ds : List Nat} (h : Grouped s ds) (plain : '_' ∉ s) :
    ds.length = s.length := by
  induction h with
  | last => rfl
  | next _ _ ih =>
      rw [List.length_cons, List.length_cons, ih fun member => plain (List.mem_cons_of_mem _ member)]
  | apart => simp at plain

theorem exists_grouped {s : List Char} (some : s ≠ []) (decimal : ∀ c ∈ s, isDecimal c = true) :
    ∃ ds, Grouped s ds := by
  induction s with
  | nil => exact absurd rfl some
  | cons c rest ih =>
      obtain ⟨d, value⟩ := Option.isSome_iff_exists.mp (decimal c List.mem_cons_self)
      by_cases last : rest = []
      · exact ⟨[d], last ▸ .last value⟩
      · obtain ⟨ds, more⟩ := ih last fun c member => decimal c (List.mem_cons_of_mem _ member)
        exact ⟨d :: ds, .next value more⟩

theorem isDigit_of_isDecimal {c : Char} (h : isDecimal c = true) : isDigit c = true := by
  simp [isDigit, h]

theorem Marked.not_isDigits {text : List Char} (h : Marked text) : ¬ IsDigits text := by
  rintro ⟨-, digits⟩
  rcases h with plus | minus | underscore
  · exact absurd (digits '+' plus) (by decide)
  · exact absurd (digits '-' minus) (by decide)
  · exact absurd (digits '_' underscore) (by decide)

theorem Numeral.ne_nil {text : List Char} {n : Int} (h : Numeral text n) : text ≠ [] := by
  cases h with
  | plain digits =>
      obtain ⟨c, rest, rfl, -⟩ := digits.exists_cons
      exact List.cons_ne_nil _ _
  | plus | minus => exact List.cons_ne_nil _ _

/-- What is read and is not written with digits alone has a sign or an underscore. -/
theorem Numeral.marked_iff {text : List Char} {n : Int} (h : Numeral text n) :
    Marked text ↔ ¬ IsDigits text := by
  refine ⟨Marked.not_isDigits, fun other => ?_⟩
  cases h with
  | plus => exact .inl List.mem_cons_self
  | minus => exact .inr (.inl List.mem_cons_self)
  | plain digits short =>
      by_contra unmarked
      refine other ⟨(Numeral.plain digits short).ne_nil, fun c member => ?_⟩
      rcases digits.decimal_or_underscore c member with decimal | rfl
      · exact isDigit_of_isDecimal decimal
      · exact absurd (.inr (.inr member)) unmarked

/-- A text of digits alone is read if and only if all of them are decimal and there are not too many. -/
theorem exists_numeral_iff {text : List Char} (digits : IsDigits text) :
    (∃ n, Numeral text n) ↔ (∀ c ∈ text, isDecimal c = true) ∧ text.length ≤ digitLimit := by
  have unmarked : ¬ Marked text := fun marked => marked.not_isDigits digits
  have plain : '_' ∉ text := fun member => unmarked (.inr (.inr member))
  constructor
  · rintro ⟨n, numeral⟩
    cases numeral with
    | plus => exact absurd (.inl List.mem_cons_self) unmarked
    | minus => exact absurd (.inr (.inl List.mem_cons_self)) unmarked
    | plain grouped short =>
        refine ⟨fun c member => ?_, grouped.length_eq plain ▸ short⟩
        rcases grouped.decimal_or_underscore c member with decimal | rfl
        · exact decimal
        · exact absurd member plain
  · rintro ⟨decimal, short⟩
    obtain ⟨ds, grouped⟩ := exists_grouped digits.1 decimal
    exact ⟨_, .plain grouped (grouped.length_eq plain ▸ short)⟩

end BrowserSteps.Text
