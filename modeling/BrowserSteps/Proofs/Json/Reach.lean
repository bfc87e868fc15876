import BrowserSteps.Proofs.Json.LongNumber
import BrowserSteps.Proofs.Json.Rest

/-!
How far reading comes. What stands in front of a place of a text either is complete or is not, without
regard to the values that it spells; and a text is refused for a long number exactly if reading comes
to one: if it stands where a value is due and everything in front of it is complete.
-/

namespace BrowserSteps.Json

/-- The brackets of arrays and of objects. -/
inductive Bracket where
  | square
  | curly

namespace Bracket

def opening : Bracket → Char
  | .square => '['
  | .curly => '\x7b'

def closing : Bracket → Char
  | .square => ']'
  | .curly => '\x7d'

/-- Reads what stands in front of the value of an element: a key and a colon, if the element is one of
an object. -/
def lead : Bracket → List Char → Except ReadError (List Char)
  | .square, s => .ok s
  | .curly, '"' :: rest => do
    let (_, after) ← readString rest
    match skipSpace after with
    | ':' :: more => .ok (skipSpace more)
    | _ => .error .malformed
  | .curly, _ => .error .malformed

end Bracket

/-- What can be due in a text: a value, or the elements between two brackets, the closing one
included. -/
inductive Place where
  | value
  | series (bracket : Bracket)

/-- Reads what is due, and answers what is left behind it. -/
def Place.read (bound : Nat) (s : List Char) : Place → Except ReadError (List Char)
  | .value => (readValue bound s).map (·.2)
  | .series .square => (readItems bound s).map (·.2)
  | .series .curly => (readMembers bound s).map (·.2)

/-- A text that begins with no string, array or object. -/
def Plain (s : List Char) : Prop := ∀ c ∈ s.head?, c ≠ '"' ∧ c ≠ '[' ∧ c ≠ '\x7b'

/-- A text begins with what is due, and this is left behind it. -/
inductive Completes : Place → List Char → List Char → Prop where
  | str {rest after : List Char} {ps : List Piece} (reads : readString rest = .ok (ps, after)) :
      Completes .value ('"' :: rest) after
  | atom {s after : List Char} {value : Json} (plain : Plain s)
      (reads : readAtom s = .ok (value, after)) : Completes .value s after
  | empty (b : Bracket) {rest after : List Char} (closes : skipSpace rest = b.closing :: after) :
      Completes .value (b.opening :: rest) after
  | nested (b : Bracket) {rest after : List Char}
      (inner : Completes (.series b) (skipSpace rest) after) :
      Completes .value (b.opening :: rest) after
  | last {b : Bracket} {s text after rest : List Char} (lead : b.lead s = .ok text)
      (value : Completes .value text after) (closes : skipSpace after = b.closing :: rest) :
      Completes (.series b) s rest
  | next {b : Bracket} {s text after more rest : List Char} (lead : b.lead s = .ok text)
      (value : Completes .value text after) (comma : skipSpace after = ',' :: more)
      (onward : Completes (.series b) (skipSpace more) rest) : Completes (.series b) s rest

/-- Where this is due, reading comes to a whole number of so many digits, more than are read. -/
inductive Meets (digits : Nat) : Place → List Char → Prop where
  | number {s : List Char} (long : LongNumber digits s) : Meets digits .value s
  | nested (b : Bracket) {rest : List Char} (inner : Meets digits (.series b) (skipSpace rest)) :
      Meets digits .value (b.opening :: rest)
  | here {b : Bracket} {s text : List Char} (lead : b.lead s = .ok text)
      (value : Meets digits .value text) : Meets digits (.series b) s
  | next {b : Bracket} {s text after more : List Char} (lead : b.lead s = .ok text)
      (value : Completes .value text after) (comma : skipSpace after = ',' :: more)
      (onward : Meets digits (.series b) (skipSpace more)) : Meets digits (.series b) s

theorem read_str (bound : Nat) (rest : List Char) :
    Place.value.read (bound + 1) ('"' :: rest) = (readString rest).map (·.2) := by
  simp only [Place.read, readValue]
  cases readString rest <;> rfl

theorem read_plain {s : List Char} (plain : Plain s) (bound : Nat) :
    Place.value.read (bound + 1) s = (readAtom s).map (·.2) := by
  cases s with
  | nil => rfl
  | cons c rest =>
      have hc := plain c rfl
      simp [Place.read, readValue, hc]

theorem read_empty (b : Bracket) (bound : Nat) {rest after : List Char}
    (closes : skipSpace rest = b.closing :: after) :
    Place.value.read (bound + 1) (b.opening :: rest) = .ok after := by
  cases b with
  | square =>
      simp only [Bracket.opening, Bracket.closing] at closes ⊢
      simp [Place.read, readValue, closes, Except.map]
  | curly =>
      simp only [Bracket.opening, Bracket.closing] at closes ⊢
      simp [Place.read, readValue, closes, Except.map]

theorem read_nested (b : Bracket) (bound : Nat) {rest : List Char}
    (inside : ∀ after, skipSpace rest ≠ b.closing :: after) :
    Place.value.read (bound + 1) (b.opening :: rest) =
      (Place.series b).read bound (skipSpace rest) := by
  cases b with
  | square =>
      simp only [Bracket.opening, Place.read, readValue]
      split
      next closes => exact absurd closes (inside _)
      next => cases readItems bound (skipSpace rest) <;> rfl
  | curly =>
      simp only [Bracket.opening, Place.read, readValue]
      split
      next closes => exact absurd closes (inside _)
      next => cases readMembers bound (skipSpace rest) <;> rfl

/-- What is read behind the value of an element. -/
def Bracket.behind (b : Bracket) (onward : List Char → Except ReadError (List Char))
    (after : List Char) : Except ReadError (List Char) :=
  match skipSpace after with
  | c :: rest =>
    if c = b.closing then .ok rest
    else if c = ',' then onward (skipSpace rest)
    else .error .malformed
  | [] => .error .malformed

theorem read_series (b : Bracket) (bound : Nat) (s : List Char) :
    (Place.series b).read (bound + 1) s =
      b.lead s >>= fun text => Place.value.read bound text >>=
        b.behind ((Place.series b).read bound) := by
  cases b with
  | square =>
      simp only [Place.read, readItems, Bracket.lead, bind, Except.bind]
      cases readValue bound s with
      | error e => rfl
      | ok read =>
          simp only [Except.map, Bracket.behind]
          cases skipSpace read.2 with
          | nil => rfl
          | cons c rest =>
              by_cases closes : c = ']'
              · subst closes
                rfl
              · by_cases comma : c = ','
                · subst comma
                  simp only [Bracket.closing, Char.reduceEq, if_false, if_true]
                  cases readItems bound (skipSpace rest) <;> rfl
                · simp [closes, comma, Bracket.closing]
  | curly =>
      cases s with
      | nil => rfl
      | cons c rest =>
          by_cases quote : c = '"'
          · subst quote
            simp only [Place.read, readMembers, Bracket.lead, bind, Except.bind]
            cases readString rest with
            | error e => rfl
            | ok keyed =>
                cases hcolon : skipSpace keyed.2 with
                | nil => simp [hcolon, Except.map]
                | cons d more =>
                    by_cases colon : d = ':'
                    · subst colon
                      simp only [hcolon]
                      cases readValue bound (skipSpace more) with
                      | error e => rfl
                      | ok read =>
                          simp only [Except.map, Bracket.behind]
                          cases skipSpace read.2 with
                          | nil => rfl
                          | cons c rest =>
                              by_cases closes : c = '\x7d'
                              · subst closes
                                rfl
                              · by_cases comma : c = ','
                                · subst comma
                                  simp only [Bracket.closing, Char.reduceEq, if_false, if_true]
                                  cases readMembers bound (skipSpace rest) <;> rfl
                                · simp [closes, comma, Bracket.closing]
                    · simp [hcolon, colon, Except.map]
          · simp [Place.read, readMembers, Bracket.lead, quote, Except.map, bind, Except.bind]

theorem Place.read_zero (s : List Char) (place : Place) : place.read 0 s = .error .malformed := by
  cases place with
  | value => rfl
  | series b => cases b <;> rfl

/-- Every text begins with a string, with a bracket or with neither. -/
theorem head_cases (s : List Char) :
    (∃ rest, s = '"' :: rest) ∨ (∃ (b : Bracket) (rest : List Char), s = b.opening :: rest) ∨
      Plain s := by
  cases s with
  | nil => exact .inr (.inr fun c head => nomatch head)
  | cons c rest =>
      by_cases quote : c = '"'
      · exact .inl ⟨rest, by rw [quote]⟩
      · by_cases square : c = '['
        · exact .inr (.inl ⟨.square, rest, by rw [square]; rfl⟩)
        · by_cases curly : c = '\x7b'
          · exact .inr (.inl ⟨.curly, rest, by rw [curly]; rfl⟩)
          · refine .inr (.inr fun d head => ?_)
            obtain rfl := Option.some.inj head
            exact ⟨quote, square, curly⟩

namespace Bracket

variable {b : Bracket} {s text after rest more : List Char} {e : ReadError}
  {onward : List Char → Except ReadError (List Char)}

theorem suffix_of_lead (h : b.lead s = .ok text) : text <:+ s := by
  unfold lead at h
  split at h
  · cases h
    exact List.suffix_rfl
  next body =>
    obtain ⟨⟨key, after⟩, hkey, h⟩ := bind_eq_ok_iff.mp h
    dsimp only at h
    split at h
    next more colon =>
      cases h
      have hmore := (suffix_skipSpace more).trans (suffix_of_skipSpace_eq colon)
      exact (hmore.trans (suffix_of_readString hkey)).trans (List.suffix_cons '"' body)
    next => cases h
  · cases h

theorem lead_error (h : b.lead s = .error e) : e = .malformed := by
  unfold lead at h
  split at h
  · cases h
  next body =>
    rcases cases_of_bind_error h with h | ⟨keyed, -, h⟩
    · exact readString_error h
    · dsimp only at h
      split at h
      · cases h
      · exact (Except.error.inj h).symm
  · exact (Except.error.inj h).symm

theorem behind_of_closes (closes : skipSpace after = b.closing :: rest) :
    b.behind onward after = .ok rest := by
  simp [behind, closes]

theorem behind_of_comma (comma : skipSpace after = ',' :: more) :
    b.behind onward after = onward (skipSpace more) := by
  have hne : ',' ≠ b.closing := by cases b <;> decide
  simp [behind, comma, hne]

/-- Behind a value stands the closing bracket, a comma, or what is no JSON. -/
theorem behind_cases (b : Bracket) (after : List Char)
    (onward : List Char → Except ReadError (List Char)) :
    (∃ rest, skipSpace after = b.closing :: rest ∧ b.behind onward after = .ok rest) ∨
      (∃ more, skipSpace after = ',' :: more ∧ b.behind onward after = onward (skipSpace more)) ∨
      b.behind onward after = .error .malformed := by
  cases hafter : skipSpace after with
  | nil => exact .inr (.inr (by simp [behind, hafter]))
  | cons c rest =>
      by_cases closes : c = b.closing
      · subst closes
        exact .inl ⟨rest, rfl, behind_of_closes hafter⟩
      · by_cases comma : c = ','
        · subst comma
          exact .inr (.inl ⟨rest, rfl, behind_of_comma hafter⟩)
        · exact .inr (.inr (by simp [behind, hafter, closes, comma]))

end Bracket

/-- What is read begins with what is due. -/
theorem completes_of_read {bound : Nat} {place : Place} {s rest : List Char}
    (h : place.read bound s = .ok rest) : Completes place s rest := by
  induction bound generalizing place s rest with
  | zero =>
      rw [Place.read_zero] at h
      cases h
  | succ bound ih =>
      cases place with
      | value =>
          rcases head_cases s with ⟨body, rfl⟩ | ⟨b, body, rfl⟩ | plain
          · rw [read_str] at h
            obtain ⟨read, hread, rfl⟩ := exists_of_map_ok h
            exact .str hread
          · by_cases closes : ∃ after, skipSpace body = b.closing :: after
            · obtain ⟨after, closes⟩ := closes
              rw [read_empty b bound closes] at h
              cases h
              exact .empty b closes
            · rw [read_nested b bound fun after closed => closes ⟨after, closed⟩] at h
              exact .nested b (ih h)
          · rw [read_plain plain] at h
            obtain ⟨read, hread, rfl⟩ := exists_of_map_ok h
            exact .atom plain hread
      | series b =>
          rw [read_series] at h
          obtain ⟨text, lead, h⟩ := bind_eq_ok_iff.mp h
          obtain ⟨after, hvalue, h⟩ := bind_eq_ok_iff.mp h
          have value := ih hvalue
          rcases b.behind_cases after ((Place.series b).read bound) with
            ⟨closed, closes, heq⟩ | ⟨more, comma, heq⟩ | heq
          · cases heq.symm.trans h
            exact .last lead value closes
          · exact .next lead value comma (ih (heq.symm.trans h))
          · cases heq.symm.trans h

/-- Where reading is refused for a long number, it has come to one. -/
theorem meets_of_read {digits bound : Nat} {place : Place} {s : List Char}
    (h : place.read bound s = .error (.longNumber digits)) : Meets digits place s := by
  induction bound generalizing place s with
  | zero =>
      rw [Place.read_zero] at h
      cases h
  | succ bound ih =>
      cases place with
      | value =>
          rcases head_cases s with ⟨body, rfl⟩ | ⟨b, body, rfl⟩ | plain
          · rw [read_str, map_eq_error_iff] at h
            cases readString_error h
          · by_cases closes : ∃ after, skipSpace body = b.closing :: after
            · obtain ⟨after, closes⟩ := closes
              rw [read_empty b bound closes] at h
              cases h
            · rw [read_nested b bound fun after closed => closes ⟨after, closed⟩] at h
              exact .nested b (ih h)
          · rw [read_plain plain, map_eq_error_iff] at h
            exact .number (readAtom_eq_long_iff.mp h)
      | series b =>
          rw [read_series] at h
          rcases cases_of_bind_error h with hlead | ⟨text, lead, h⟩
          · cases Bracket.lead_error hlead
          · rcases cases_of_bind_error h with hvalue | ⟨after, hvalue, h⟩
            · exact .here lead (ih hvalue)
            · have value := completes_of_read hvalue
              rcases b.behind_cases after ((Place.series b).read bound) with
                ⟨closed, closes, heq⟩ | ⟨more, comma, heq⟩ | heq
              · cases heq.symm.trans h
              · exact .next lead value comma (ih (heq.symm.trans h))
              · cases heq.symm.trans h

/-- What is left behind what is due is an end of the text. -/
theorem Completes.suffix {place : Place} {s rest : List Char} (h : Completes place s rest) :
    rest <:+ s := by
  induction h with
  | str reads => exact (suffix_of_readString reads).trans (List.suffix_cons _ _)
  | atom plain reads => exact suffix_of_readAtom reads
  | empty b closes => exact (suffix_of_skipSpace_eq closes).trans (List.suffix_cons _ _)
  | nested b inner ih => exact (ih.trans (suffix_skipSpace _)).trans (List.suffix_cons _ _)
  | @last b s text after rest lead value closes ih =>
      exact ((suffix_of_skipSpace_eq closes).trans ih).trans (Bracket.suffix_of_lead lead)
  | @next b s text after more rest lead value comma onward ihValue ihOnward =>
      have hmore := (suffix_skipSpace more).trans (suffix_of_skipSpace_eq comma)
      exact ((ihOnward.trans hmore).trans ihValue).trans (Bracket.suffix_of_lead lead)

/-- Digits in a row, more than are read, stand in every text in which reading comes to a long number. -/
theorem Meets.infix {digits : Nat} {place : Place} {s : List Char} (h : Meets digits place s) :
    ∃ whole, whole <:+: s ∧ whole.length = digits ∧ Text.digitLimit < digits ∧
      ∀ c ∈ whole, c.isDigit = true := by
  induction h with
  | number long =>
      obtain ⟨sign, whole, rest, rfl, -, long⟩ := long
      exact ⟨whole, ⟨sign, rest, by simp⟩, long.length, long.long, long.all_digits⟩
  | nested b inner ih =>
      obtain ⟨whole, within, facts⟩ := ih
      exact ⟨whole, within.trans ((suffix_skipSpace _).trans (List.suffix_cons _ _)).isInfix, facts⟩
  | here lead value ih =>
      obtain ⟨whole, within, facts⟩ := ih
      exact ⟨whole, within.trans (Bracket.suffix_of_lead lead).isInfix, facts⟩
  | @next b s text after more lead value comma onward ih =>
      obtain ⟨whole, within, facts⟩ := ih
      have hmore := (suffix_skipSpace more).trans (suffix_of_skipSpace_eq comma)
      have hs := (hmore.trans value.suffix).trans (Bracket.suffix_of_lead lead)
      exact ⟨whole, within.trans hs.isInfix, facts⟩

/-- Elements that begin with the closing bracket are no JSON. -/
theorem read_series_closing (b : Bracket) (bound : Nat) (rest : List Char) :
    (Place.series b).read bound (b.closing :: rest) = .error .malformed := by
  cases bound with
  | zero => exact Place.read_zero _ _
  | succ bound =>
      rw [read_series]
      cases b with
      | curly => rfl
      | square =>
          cases bound with
          | zero => rfl
          | succ bound => rfl

/-- How often reading what is due calls itself, at most. -/
def Place.depth (s : List Char) : Place → Nat
  | .value => 2 * s.length + 1
  | .series _ => 2 * s.length + 2

section

variable {b : Bracket} {s text after rest more : List Char} {bound : Nat}

theorem depth_nested (enough : Place.value.depth (b.opening :: rest) ≤ bound + 1) :
    (Place.series b).depth (skipSpace rest) ≤ bound := by
  have hlength := (suffix_skipSpace rest).length_le
  simp only [Place.depth, List.length_cons] at enough ⊢
  omega

theorem depth_lead (lead : b.lead s = .ok text) (enough : (Place.series b).depth s ≤ bound + 1) :
    Place.value.depth text ≤ bound := by
  have hlength := (Bracket.suffix_of_lead lead).length_le
  simp only [Place.depth] at enough ⊢
  omega

/-- The comma makes the rest of the elements shorter, whatever the value in front of it is. -/
theorem depth_comma (lead : b.lead s = .ok text) (value : Completes .value text after)
    (comma : skipSpace after = ',' :: more) (enough : (Place.series b).depth s ≤ bound + 1) :
    (Place.series b).depth (skipSpace more) ≤ bound := by
  have htext := (Bracket.suffix_of_lead lead).length_le
  have hafter := value.suffix.length_le
  have hcomma := (suffix_skipSpace after).length_le
  have hmore := (suffix_skipSpace more).length_le
  rw [comma, List.length_cons] at hcomma
  simp only [Place.depth] at enough ⊢
  omega

theorem depth_pos {place : Place} (enough : place.depth s ≤ bound) : ∃ below, bound = below + 1 := by
  refine Nat.exists_eq_add_one_of_ne_zero fun zero => ?_
  cases place <;> simp only [Place.depth] at enough <;> omega

end

/-- Reading goes through whatever begins with what is due. -/
theorem Completes.reads {place : Place} {s rest : List Char} (h : Completes place s rest)
    {bound : Nat} (enough : place.depth s ≤ bound) : place.read bound s = .ok rest := by
  induction h generalizing bound with
  | str reads =>
      obtain ⟨bound, rfl⟩ := depth_pos enough
      rw [read_str, reads]
      rfl
  | atom plain reads =>
      obtain ⟨bound, rfl⟩ := depth_pos enough
      rw [read_plain plain, reads]
      rfl
  | empty b closes =>
      obtain ⟨bound, rfl⟩ := depth_pos enough
      exact read_empty b bound closes
  | nested b inner ih =>
      obtain ⟨bound, rfl⟩ := depth_pos enough
      have hinner := ih (depth_nested enough)
      rw [read_nested b bound, hinner]
      intro closed closes
      rw [closes, read_series_closing] at hinner
      cases hinner
  | last lead value closes ih =>
      obtain ⟨bound, rfl⟩ := depth_pos enough
      simp only [read_series, lead, bind, Except.bind, ih (depth_lead lead enough)]
      exact Bracket.behind_of_closes closes
  | next lead value comma onward ihValue ihOnward =>
      obtain ⟨bound, rfl⟩ := depth_pos enough
      simp only [read_series, lead, bind, Except.bind, ihValue (depth_lead lead enough)]
      rw [Bracket.behind_of_comma comma]
      exact ihOnward (depth_comma lead value comma enough)

theorem LongNumber.plain {digits : Nat} {s : List Char} (h : LongNumber digits s) : Plain s := by
  obtain ⟨sign, whole, rest, rfl, signs, long⟩ := h
  obtain ⟨first, more, rfl, digit⟩ := long.exists_cons
  intro c head
  rcases signs with rfl | rfl
  · obtain rfl := Option.some.inj head
    exact ⟨ne_of_isDigit digit rfl, ne_of_isDigit digit rfl, ne_of_isDigit digit rfl⟩
  · obtain rfl := Option.some.inj head
    decide

/-- Where reading comes to a long number, it is refused for it. -/
theorem Meets.reads {digits : Nat} {place : Place} {s : List Char} (h : Meets digits place s)
    {bound : Nat} (enough : place.depth s ≤ bound) :
    place.read bound s = .error (.longNumber digits) := by
  induction h generalizing bound with
  | number long =>
      obtain ⟨bound, rfl⟩ := depth_pos enough
      rw [read_plain long.plain, readAtom_eq_long_iff.mpr long]
      rfl
  | nested b inner ih =>
      obtain ⟨bound, rfl⟩ := depth_pos enough
      have hinner := ih (depth_nested enough)
      rw [read_nested b bound, hinner]
      intro closed closes
      rw [closes, read_series_closing] at hinner
      cases hinner
  | here lead value ih =>
      obtain ⟨bound, rfl⟩ := depth_pos enough
      simp only [read_series, lead, bind, Except.bind, ih (depth_lead lead enough)]
  | next lead value comma onward ih =>
      obtain ⟨bound, rfl⟩ := depth_pos enough
      simp only [read_series, lead, bind, Except.bind, value.reads (depth_lead lead enough)]
      rw [Bracket.behind_of_comma comma]
      exact ih (depth_comma lead value comma enough)

/-- A text is refused for a long number exactly if reading comes to one. -/
theorem read_eq_long_iff {text : String} {digits : Nat} :
    read text = .error (.longNumber digits) ↔ Meets digits .value (skipSpace text.toList) := by
  constructor
  · intro h
    rcases cases_of_bind_error h with hvalue | ⟨read, -, hrest⟩
    · exact meets_of_read (map_eq_error_iff.mpr hvalue)
    · dsimp only at hrest
      split at hrest <;> cases hrest
  · intro h
    have enough : Place.value.depth (skipSpace text.toList) ≤ 2 * text.toList.length + 1 := by
      have hlength := (suffix_skipSpace text.toList).length_le
      simp only [Place.depth]
      omega
    simp only [read, map_eq_error_iff.mp (h.reads enough), bind, Except.bind]

end BrowserSteps.Json
