import BrowserSteps.Proofs.Json.Reach
import BrowserSteps.Step.Document

/-!
Documents that are refused. A document that is no JSON, no array or no list of steps holds no steps, and
its caller is told of nothing; but reading is refused where it comes to a whole number beyond the digit
limit, in whatever member it stands and whatever is malformed behind it. No other text is refused.
-/

namespace BrowserSteps

namespace Text

theorem isBlank_of_isDigit {c : Char} (digit : c.isDigit = true) : isBlank c = false := by
  have bounds : 48 ≤ c.toNat ∧ c.toNat ≤ 57 := by
    simp only [Char.isDigit, Bool.and_eq_true, decide_eq_true_eq] at digit
    exact digit
  simp only [isBlank, Bool.or_eq_false_iff, Bool.and_eq_false_iff, decide_eq_false_iff_not,
    beq_eq_false_iff_ne]
  omega

end Text

/-- Where nothing but blanks stands, there is no value. -/
theorem Json.read_blank {text : String} (blank : Text.isBlankText text = true) :
    read text = .error .malformed := by
  have hvalue : readValue (2 * text.toList.length + 1) (skipSpace text.toList) =
      .error .malformed := by
    have hblank : ∀ c ∈ skipSpace text.toList, Text.isBlank c = true := fun c member =>
      List.all_eq_true.mp blank c ((suffix_skipSpace text.toList).subset member)
    cases hs : skipSpace text.toList with
    | nil => rfl
    | cons c rest =>
        have hc := hblank c (hs ▸ List.mem_cons_self)
        have hne {d : Char} (other : Text.isBlank d = false) : c ≠ d := by
          rintro rfl
          exact Bool.false_ne_true (other.symm.trans hc)
        have plain : Plain (c :: rest) := by
          intro d head
          obtain rfl := Option.some.inj head
          exact ⟨hne rfl, hne rfl, hne rfl⟩
        have noDigit : c.isDigit = false := Bool.eq_false_iff.mpr fun digit =>
          Bool.false_ne_true ((Text.isBlank_of_isDigit digit).symm.trans hc)
        have hatom : readAtom (c :: rest) = readNumber false (c :: rest) := by
          simp [readAtom, hne (d := 'n') rfl, hne (d := 't') rfl, hne (d := 'f') rfl,
            hne (d := 'N') rfl, hne (d := 'I') rfl, hne (d := '-') rfl]
        have hwhole : (splitWhole (c :: rest)).1 = [] := by
          simp [splitWhole, hne (d := '0') rfl, noDigit]
        refine map_eq_error_iff.mp ((read_plain plain _).trans (map_eq_error_iff.mpr ?_))
        rw [hatom]
        simp [readNumber, hwhole]
  simp only [read, hvalue, bind, Except.bind]

namespace Step

/-- The document is an array, and these steps are its items. -/
def Holds (text : String) (steps : List Step) : Prop :=
  ∃ items, Json.read text = .ok (.arr items) ∧
    List.Forall₂ (fun item step => ofJson item = .ok step) items steps

theorem listOfItems?_eq_some_iff {items : List Json} {steps : List Step} :
    listOfItems? items = some steps ↔
      List.Forall₂ (fun item step => ofJson item = .ok step) items steps := by
  induction items generalizing steps with
  | nil => simp [listOfItems?, eq_comm]
  | cons item items ih =>
      rw [listOfItems?]
      split
      next step hstep =>
        constructor
        · intro h
          obtain ⟨others, hothers, rfl⟩ := Option.map_eq_some_iff.mp h
          exact .cons hstep (ih.mp hothers)
        · intro h
          cases h with
          | cons head tail =>
              cases hstep.symm.trans head
              rw [ih.mpr tail]
              rfl
      next fault hfault =>
        constructor
        · intro h
          cases h
        · intro h
          cases h with
          | cons head tail => cases hfault.symm.trans head

theorem parse_of_holds {text : String} {steps : List Step} (h : Holds text steps) :
    parse text = .ok steps := by
  obtain ⟨items, hread, valid⟩ := h
  have hblank : Text.isBlankText text = false := by
    refine Bool.eq_false_iff.mpr fun blank => ?_
    cases hread.symm.trans (Json.read_blank blank)
  simp [parse, hblank, hread, listOfJson, listOfItems?_eq_some_iff.mpr valid]

/-- A document is refused exactly if reading it comes to a whole number beyond the digit limit. -/
theorem parse_eq_error_iff {text : String} {e : Json.ReadError} :
    parse text = .error e ↔ ∃ digits, e = .longNumber digits ∧
      Json.Meets digits .value (Json.skipSpace text.toList) := by
  simp only [← Json.read_eq_long_iff]
  unfold parse
  split
  next blank => simp [Json.read_blank blank]
  next =>
    split
    next value hread => simp [hread]
    next hread => simp [hread]
    next digits hread => simp [hread, eq_comm]

/-- What is neither refused nor an array of steps holds no steps. -/
theorem parse_cases (text : String) :
    (∃ e, parse text = .error e) ∨ (∃ steps, Holds text steps) ∨ parse text = .ok [] := by
  unfold parse
  split
  · exact .inr (.inr rfl)
  · split
    next value hread =>
      cases value with
      | arr items =>
          cases hitems : listOfItems? items with
          | none => exact .inr (.inr (by simp [listOfJson, hitems]))
          | some steps => exact .inr (.inl ⟨steps, items, hread, listOfItems?_eq_some_iff.mp hitems⟩)
      | _ => exact .inr (.inr rfl)
    next => exact .inr (.inr rfl)
    next digits hread => exact .inl ⟨_, rfl⟩

/-- Reading a document is refused exactly if it comes to a whole number beyond the digit limit, with
everything in front of it complete; a text without so many digits in a row is never refused. Any other
text is read as a list of steps: of all the items of an array if each of them is a step, and of nothing
otherwise. -/
theorem parse_refused_or_list (text : String) :
    (∀ e, parse text = .error e ↔ ∃ digits, e = .longNumber digits ∧
      Json.Meets digits .value (Json.skipSpace text.toList)) ∧
    ((∀ run, run <:+: text.toList → (∀ c ∈ run, c.isDigit = true) →
      run.length ≤ Text.digitLimit) → ∃ steps, parse text = .ok steps) ∧
    (∀ steps, parse text = .ok steps ↔ Holds text steps ∨ steps = [] ∧
      (∀ others, ¬ Holds text others) ∧
      ∀ digits, ¬ Json.Meets digits .value (Json.skipSpace text.toList)) := by
  refine ⟨fun e => parse_eq_error_iff, fun short => ?_, fun steps => ⟨fun h => ?_, fun h => ?_⟩⟩
  · cases hparse : parse text with
    | ok steps => exact ⟨steps, rfl⟩
    | error e =>
        obtain ⟨digits, -, meets⟩ := parse_eq_error_iff.mp hparse
        obtain ⟨run, within, hlength, long, all_digits⟩ := meets.infix
        have hrun := short run (within.trans (Json.suffix_skipSpace _).isInfix) all_digits
        omega
  · rcases parse_cases text with ⟨e, he⟩ | ⟨others, hothers⟩ | hnone
    · cases he.symm.trans h
    · cases (parse_of_holds hothers).symm.trans h
      exact .inl hothers
    · by_cases holds : ∃ others, Holds text others
      · obtain ⟨others, hothers⟩ := holds
        cases (parse_of_holds hothers).symm.trans h
        exact .inl hothers
      · refine .inr ⟨Except.ok.inj (h.symm.trans hnone), not_exists.mp holds, fun digits meets => ?_⟩
        cases (parse_eq_error_iff.mpr ⟨digits, rfl, meets⟩).symm.trans h
  · rcases h with holds | ⟨rfl, noSteps, noNumber⟩
    · exact parse_of_holds holds
    · rcases parse_cases text with ⟨e, he⟩ | ⟨others, hothers⟩ | hnone
      · obtain ⟨digits, -, meets⟩ := parse_eq_error_iff.mp he
        exact absurd meets (noNumber digits)
      · exact absurd hothers (noSteps others)
      · exact hnone

/-- An array is refused that is no list of steps: its one item is a number of 4301 digits. -/
theorem parse_4301_ones :
    parse (String.ofList ('[' :: (List.replicate 4301 '1' ++ [']']))) = .error (.longNumber 4301) := by
  have ends : ¬ Json.GoesOn [']'] := by
    intro onward
    rcases Json.parts_of_goesOn onward with ⟨c, head, digit⟩ | fraction | exponent
    · obtain rfl := Option.some.inj head
      exact absurd digit (by decide)
    · exact fraction rfl
    · exact exponent rfl
  have long : Json.LongDigits 4301 (List.replicate 4301 '1') [']'] :=
    { all_digits := fun c member => by rw [List.eq_of_mem_replicate member]; rfl
      leading := by decide
      ends := ends
      length := List.length_replicate
      long := by decide }
  refine parse_eq_error_iff.mpr ⟨4301, rfl, ?_⟩
  rw [String.toList_ofList]
  exact .nested .square (.here rfl (.number ⟨[], _, _, rfl, .inl rfl, long⟩))

end Step

end BrowserSteps
