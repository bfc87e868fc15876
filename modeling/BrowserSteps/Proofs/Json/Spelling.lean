import BrowserSteps.Proofs.Json.Token
import BrowserSteps.Proofs.Json.Within
import BrowserSteps.Proofs.Keyed

/-!
Texts of values. A spelling has blanks of its own choice behind the opening brackets, behind the
commas and before the closing brackets; both layouts are spellings, and every spelling is read as the
value that it spells. Binary64 numbers are left out.
-/

namespace BrowserSteps

namespace Json

/-- What texts are made of: values, and what comes after an opening bracket or brace, up to the closing
one. -/
inductive Part where
  | value (value : Json)
  | items (items : List Json)
  | members (members : List (String × Json))

/-- Nothing but blanks. -/
def IsGap (s : List Char) : Prop := ∀ c ∈ s, isSpace c = true

/-- The texts that spell a part. -/
inductive Spells : Part → List Char → Prop where
  | null : Spells (.value .null) "null".toList
  | bool (b : Bool) : Spells (.value (.bool b)) (if b then "true".toList else "false".toList)
  | int {n : Int} (small : Small (.int n)) : Spells (.value (.int n)) (toString n).toList
  | str (s : String) : Spells (.value (.str s)) (stringText s)
  | noItems : Spells (.value (.arr [])) ['[', ']']
  | arr {gap text : List Char} {items : List Json} (blank : IsGap gap)
      (inner : Spells (.items items) text) : Spells (.value (.arr items)) ('[' :: gap ++ text)
  | noMembers : Spells (.value (.obj [])) ['\x7b', '\x7d']
  | obj {gap text : List Char} {members : List (String × Json)} (blank : IsGap gap)
      (distinct : (members.map (·.1)).Nodup) (inner : Spells (.members members) text) :
      Spells (.value (.obj members)) ('\x7b' :: gap ++ text)
  | lastItem {gap text : List Char} {item : Json} (spelled : Spells (.value item) text)
      (blank : IsGap gap) : Spells (.items [item]) (text ++ gap ++ [']'])
  | item {gap text more : List Char} {item : Json} {rest : List Json}
      (spelled : Spells (.value item) text) (blank : IsGap gap) (onward : Spells (.items rest) more) :
      Spells (.items (item :: rest)) (text ++ ',' :: gap ++ more)
  | lastMember {gap text : List Char} {value : Json} (key : String)
      (spelled : Spells (.value value) text) (blank : IsGap gap) :
      Spells (.members [(key, value)]) (stringText key ++ ':' :: ' ' :: text ++ gap ++ ['\x7d'])
  | member {gap text more : List Char} {value : Json} {rest : List (String × Json)} (key : String)
      (spelled : Spells (.value value) text) (blank : IsGap gap)
      (onward : Spells (.members rest) more) :
      Spells (.members ((key, value) :: rest))
        (stringText key ++ ':' :: ' ' :: text ++ ',' :: gap ++ more)

/-- A part is read from a text, and nothing of what follows. -/
def Part.ReadsFrom (bound : Nat) (text rest : List Char) : Part → Prop
  | .value v => readValue bound (text ++ rest) = .ok (v, rest)
  | .items vs => readItems bound (text ++ rest) = .ok (vs, rest)
  | .members ms => readMembers bound (text ++ rest) = .ok (ms, rest)

theorem skipSpace_gap {gap : List Char} (blank : IsGap gap) (rest : List Char) :
    skipSpace (gap ++ rest) = skipSpace rest := by
  induction gap with
  | nil => rfl
  | cons c gap ih =>
      rw [List.cons_append, skipSpace, List.dropWhile_cons_of_pos (blank c List.mem_cons_self)]
      exact ih fun c member => blank c (List.mem_cons_of_mem _ member)

theorem skipSpace_cons {c : Char} (h : isSpace c = false) (rest : List Char) :
    skipSpace (c :: rest) = c :: rest :=
  List.dropWhile_cons_of_neg (by simp [h])

/-- A text begins with something else than a blank or a closing bracket. -/
theorem Spells.head {part : Part} {text : List Char} (h : Spells part text) :
    ∃ first more, text = first :: more ∧ isSpace first = false ∧ first ≠ ']' ∧ first ≠ '\x7d' := by
  induction h with
  | null | noItems | noMembers => exact ⟨_, _, rfl, rfl, by decide, by decide⟩
  | str | lastMember | member | arr | obj =>
      exact ⟨_, _, rfl, rfl, by decide, by decide⟩
  | bool b => cases b <;> exact ⟨_, _, rfl, rfl, by decide, by decide⟩
  | @int n =>
      obtain ⟨first, more, heq, digit, -⟩ := toDigits_eq_cons n.natAbs
      rw [toList_toString_int, heq]
      split
      · have hne {c : Char} (other : c.isDigit = false) : first ≠ c := ne_of_isDigit digit other
        refine ⟨first, more, rfl, ?_, hne rfl, hne rfl⟩
        simp [isSpace, hne (c := ' ') rfl, hne (c := '\t') rfl, hne (c := '\n') rfl,
          hne (c := '\r') rfl]
      · exact ⟨_, _, rfl, rfl, by decide, by decide⟩
  | lastItem _ _ ih | item _ _ _ ih =>
      obtain ⟨first, more, rfl, others⟩ := ih
      exact ⟨first, _, rfl, others⟩

theorem endsNumber_cons {c : Char} (h : c.isDigit = false ∧ c ≠ '.' ∧ c ≠ 'e' ∧ c ≠ 'E')
    (rest : List Char) : EndsNumber (c :: rest) := by
  rintro d hd
  obtain rfl := Option.some.inj hd
  exact h

theorem endsNumber_gap {gap rest : List Char} (blank : IsGap gap) (ends : EndsNumber rest) :
    EndsNumber (gap ++ rest) := by
  cases gap with
  | nil => exact ends
  | cons c gap =>
      have hspace := blank c List.mem_cons_self
      simp only [isSpace, Bool.or_eq_true, decide_eq_true_eq] at hspace
      rcases hspace with ((rfl | rfl) | rfl) | rfl <;> exact endsNumber_cons (by decide) _

theorem readValue_of_atom {first : Char} (more : List Char) (bound : Nat)
    (h : first ≠ '"' ∧ first ≠ '[' ∧ first ≠ '\x7b') :
    readValue (bound + 1) (first :: more) = readAtom (first :: more) := by
  simp [readValue, h]

theorem readValue_int {n : Int} (small : Small (.int n)) {rest : List Char} (ends : EndsNumber rest)
    (bound : Nat) :
    readValue (bound + 1) ((toString n).toList ++ rest) = .ok (.int n, rest) := by
  rw [← readAtom_int small ends, toList_toString_int]
  obtain ⟨first, more, heq, digit, -⟩ := toDigits_eq_cons n.natAbs
  have hne {c : Char} (other : c.isDigit = false) : first ≠ c := ne_of_isDigit digit other
  rw [heq]
  split
  · exact readValue_of_atom _ _ ⟨hne rfl, hne rfl, hne rfl⟩
  · exact readValue_of_atom _ _ (by decide)

/-- Behind an opening bracket blanks are skipped, up to the first item. -/
theorem skipSpace_gap_spelling {part : Part} {gap text : List Char} (blank : IsGap gap)
    (h : Spells part text) (rest : List Char) :
    skipSpace (gap ++ text ++ rest) = text ++ rest := by
  obtain ⟨first, more, rfl, noSpace, -⟩ := h.head
  rw [List.append_assoc, skipSpace_gap blank, List.cons_append, skipSpace_cons noSpace]

/-- A member is read up to the brace or the comma behind its value. -/
theorem readMembers_key {part : Part} {text after rest : List Char} {value : Json}
    {others : List (String × Json)} {bound : Nat} (key : String) (h : Spells part text)
    (hread : readValue bound (text ++ after) = .ok (value, after))
    (onward : skipSpace after = '\x7d' :: rest ∧ others = [] ∨
      ∃ more, skipSpace after = ',' :: more ∧
        readMembers bound (skipSpace more) = .ok (others, rest)) :
    readMembers (bound + 1) (stringText key ++ ':' :: ' ' :: (text ++ after)) =
      .ok ((key, value) :: others, rest) := by
  have blank : IsGap [' '] := List.forall_mem_singleton.mpr rfl
  have hskip : skipSpace (' ' :: (text ++ after)) = text ++ after :=
    skipSpace_gap_spelling blank h after
  simp only [stringText, List.cons_append, List.append_assoc, List.nil_append, readMembers,
    readString_stringText]
  simp only [bind, Except.bind, skipSpace_cons (c := ':') rfl, hskip, hread]
  rcases onward with ⟨closing, rfl⟩ | ⟨more, comma, hmore⟩
  · simp only [closing, pure, Except.pure, member_chars]
  · simp only [comma, hmore, pure, Except.pure, member_chars, List.singleton_append]

/-- Every spelling is read as what it spells. -/
theorem Spells.reads {part : Part} {text : List Char} (h : Spells part text) :
    ∀ {bound : Nat} {rest : List Char}, text.length < bound → EndsNumber rest →
      part.ReadsFrom bound text rest := by
  -- The bound goes down by one at every token, and every token has at least one character.
  induction h <;> intro bound rest enough ends <;>
    obtain ⟨bound, rfl⟩ := Nat.exists_eq_add_one_of_ne_zero (Nat.ne_zero_of_lt enough)
  case null => rfl
  case bool b => cases b <;> rfl
  case int n small => exact readValue_int small ends bound
  case str s =>
      simp only [Part.ReadsFrom, stringText, List.cons_append, List.append_assoc, readValue]
      rw [readString_stringText]
      simp only [Except.map, ofPieces_chars, List.nil_append]
  case noItems => rfl
  case noMembers => rfl
  case arr gap text items blank inner ih =>
      have hread : readItems bound (text ++ rest) = .ok (items, rest) :=
        ih (by simp only [List.length_append, List.length_cons] at enough; omega) ends
      have hskip := skipSpace_gap_spelling blank inner rest
      obtain ⟨first, more, rfl, -, notClosing, -⟩ := inner.head
      simp only [List.cons_append] at hread hskip
      simp only [Part.ReadsFrom, List.cons_append, readValue, hskip]
      split
      next same => exact absurd (List.cons.inj same).1 notClosing
      next => simp only [hread, Except.map]
  case obj gap text members blank distinct inner ih =>
      have hread : readMembers bound (text ++ rest) = .ok (members, rest) :=
        ih (by simp only [List.length_append, List.length_cons] at enough; omega) ends
      have hskip := skipSpace_gap_spelling blank inner rest
      obtain ⟨first, more, rfl, -, -, notClosing⟩ := inner.head
      simp only [List.cons_append] at hread hskip
      simp only [Part.ReadsFrom, List.cons_append, readValue, hskip]
      split
      next same => exact absurd (List.cons.inj same).1 notClosing
      next => simp only [hread, Except.map, Keyed.ofPairs_of_nodup distinct]
  case lastItem gap text item spelled blank ih =>
      have hclosing : EndsNumber (gap ++ ']' :: rest) :=
        endsNumber_gap blank (endsNumber_cons (by decide) rest)
      have hread : readValue bound (text ++ (gap ++ ']' :: rest)) = .ok (item, gap ++ ']' :: rest) :=
        ih (by simp only [List.length_append, List.length_cons] at enough; omega) hclosing
      simp only [Part.ReadsFrom, List.append_assoc, List.singleton_append, readItems, hread]
      simp [bind, Except.bind, skipSpace_gap blank, skipSpace_cons (c := ']') rfl, pure, Except.pure]
  case item gap text more item others spelled blank onward ih ihMore =>
      simp only [List.length_append, List.length_cons] at enough
      have hcomma : EndsNumber (',' :: (gap ++ more ++ rest)) := endsNumber_cons (by decide) _
      have hread : readValue bound (text ++ (',' :: (gap ++ more ++ rest))) =
          .ok (item, ',' :: (gap ++ more ++ rest)) := ih (by omega) hcomma
      have honward : readItems bound (more ++ rest) = .ok (others, rest) := ihMore (by omega) ends
      have hskip := skipSpace_gap_spelling blank onward rest
      simp only [List.append_assoc] at hread hskip
      simp only [Part.ReadsFrom, List.append_assoc, List.cons_append, readItems, hread]
      simp [bind, Except.bind, skipSpace_cons (c := ',') rfl, hskip, honward, pure, Except.pure]
  case lastMember gap text value key spelled blank ih =>
      simp only [List.length_append, List.length_cons] at enough
      have hclosing : EndsNumber (gap ++ '\x7d' :: rest) :=
        endsNumber_gap blank (endsNumber_cons (by decide) rest)
      have hread : readValue bound (text ++ (gap ++ '\x7d' :: rest)) =
          .ok (value, gap ++ '\x7d' :: rest) := ih (by omega) hclosing
      have hbrace : skipSpace (gap ++ '\x7d' :: rest) = '\x7d' :: rest := by
        rw [skipSpace_gap blank, skipSpace_cons rfl]
      have hmember := readMembers_key key spelled hread (.inl ⟨hbrace, rfl⟩)
      simpa only [Part.ReadsFrom, List.append_assoc, List.cons_append, List.nil_append] using hmember
  case member gap text more value others key spelled blank onward ih ihMore =>
      simp only [List.length_append, List.length_cons] at enough
      have hcomma : EndsNumber (',' :: (gap ++ more ++ rest)) := endsNumber_cons (by decide) _
      have hread : readValue bound (text ++ (',' :: (gap ++ more ++ rest))) =
          .ok (value, ',' :: (gap ++ more ++ rest)) := ih (by omega) hcomma
      have honward : readMembers bound (skipSpace (gap ++ more ++ rest)) = .ok (others, rest) := by
        rw [skipSpace_gap_spelling blank onward]
        exact ihMore (by omega) ends
      have hmember := readMembers_key key spelled hread (.inr ⟨_, skipSpace_cons rfl _, honward⟩)
      simpa only [Part.ReadsFrom, List.append_assoc, List.cons_append] using hmember

/-- A spelling is read as the value that it spells, and nothing is left of it. -/
theorem read_of_spells {text : List Char} {value : Json} (h : Spells (.value value) text) :
    read (String.ofList text) = .ok value := by
  have hread : readValue (2 * text.length + 1) (text ++ []) = .ok (value, []) :=
    h.reads (by omega) nofun
  obtain ⟨first, more, rfl, noSpace, -⟩ := h.head
  rw [List.append_nil] at hread
  simp only [read, String.toList_ofList, skipSpace_cons noSpace, hread]
  rfl

/-- A value that is read back from its text, as far as that depends on the value itself: no binary64
number, no string but a text, no whole number beyond the digit limit, and no object with a key
twice. -/
def Legible : Json → Prop
  | .float _ | .unpaired _ => False
  | .obj members => (members.map (·.1)).Nodup
  | value => value.Small

theorem spells_atomText {value : Json} (noItems : ∀ items, value ≠ .arr items)
    (noMembers : ∀ members, value ≠ .obj members) (legible : value.Legible) :
    Spells (.value value) (atomText value) := by
  cases value with
  | null => exact .null
  | bool b => cases b <;> exact .bool _
  | int n => exact .int legible
  | float _ | unpaired _ => exact legible.elim
  | str s => exact .str s
  | arr items => exact absurd rfl (noItems items)
  | obj members => exact absurd rfl (noMembers members)

theorem isGap_nil : IsGap [] := List.forall_mem_nil _

theorem isGap_blank : IsGap [' '] := List.forall_mem_singleton.mpr rfl

theorem isGap_newLine (level : Nat) : IsGap (newLine level) := by
  intro c member
  rcases List.mem_cons.mp member with rfl | blank
  · rfl
  · rw [List.eq_of_mem_replicate blank]
    rfl

theorem spells_flatItems {items : List Json} (nonempty : items ≠ [])
    (h : ∀ item ∈ items, Spells (.value item) (flatChars item)) :
    Spells (.items items) (flatItems items ++ [']']) := by
  induction items with
  | nil => exact absurd rfl nonempty
  | cons item rest ih =>
      have hitem := h item List.mem_cons_self
      cases rest with
      | nil => simpa [flatItems] using Spells.lastItem hitem isGap_nil
      | cons next rest =>
          have hrest := ih (List.cons_ne_nil _ _) fun other member =>
            h other (List.mem_cons_of_mem _ member)
          simpa [flatItems] using Spells.item hitem isGap_blank hrest

theorem spells_flatMembers {members : List (String × Json)} (nonempty : members ≠ [])
    (h : ∀ member ∈ members, Spells (.value member.2) (flatChars member.2)) :
    Spells (.members members) (flatMembers members ++ ['\x7d']) := by
  induction members with
  | nil => exact absurd rfl nonempty
  | cons member rest ih =>
      have hmember := h member List.mem_cons_self
      cases rest with
      | nil => simpa [flatMembers] using Spells.lastMember member.1 hmember isGap_nil
      | cons next rest =>
          have hrest := ih (List.cons_ne_nil _ _) fun other member =>
            h other (List.mem_cons_of_mem _ member)
          simpa [flatMembers] using Spells.member member.1 hmember isGap_blank hrest

/-- The flat layout of a legible value spells it. -/
theorem spells_flatChars (value : Json) (legible : value.All Legible) :
    Spells (.value value) (flatChars value) := by
  refine All.induction (motive := fun value => Spells (.value value) (flatChars value))
    ?_ ?_ ?_ value legible
  · intro value noItems noMembers legible
    have hatom := spells_atomText noItems noMembers legible
    cases value with
    | arr items => exact absurd rfl (noItems items)
    | obj members => exact absurd rfl (noMembers members)
    | _ => exact hatom
  · intro items _ h
    cases items with
    | nil => exact .noItems
    | cons item rest =>
        have harr := Spells.arr isGap_nil (spells_flatItems (List.cons_ne_nil item rest) h)
        exact harr
  · intro members distinct h
    cases members with
    | nil => exact .noMembers
    | cons member rest =>
        have hobj := Spells.obj isGap_nil distinct
          (spells_flatMembers (List.cons_ne_nil member rest) h)
        exact hobj

/-- Each item has a line of its own; the first line break stands in front of all of them. -/
theorem spells_deepItems {items : List Json} (nonempty : items ≠ []) (level : Nat)
    {closing : List Char} (blank : IsGap closing)
    (h : ∀ item ∈ items, ∀ level, Spells (.value item) (deepChars level item)) :
    ∃ inner, deepItems level items ++ closing ++ [']'] = newLine level ++ inner ∧
      Spells (.items items) inner := by
  induction items with
  | nil => exact absurd rfl nonempty
  | cons item rest ih =>
      have hitem := h item List.mem_cons_self level
      cases rest with
      | nil => exact ⟨_, by simp [deepItems], .lastItem hitem blank⟩
      | cons next rest =>
          obtain ⟨inner, heq, hrest⟩ := ih (List.cons_ne_nil _ _) fun other member =>
            h other (List.mem_cons_of_mem _ member)
          simp only [List.append_assoc] at heq
          exact ⟨_, by simp [deepItems, heq], .item hitem (isGap_newLine level) hrest⟩

theorem spells_deepMembers {members : List (String × Json)} (nonempty : members ≠ []) (level : Nat)
    {closing : List Char} (blank : IsGap closing)
    (h : ∀ member ∈ members, ∀ level, Spells (.value member.2) (deepChars level member.2)) :
    ∃ inner, deepMembers level members ++ closing ++ ['\x7d'] = newLine level ++ inner ∧
      Spells (.members members) inner := by
  induction members with
  | nil => exact absurd rfl nonempty
  | cons member rest ih =>
      have hmember := h member List.mem_cons_self level
      cases rest with
      | nil => exact ⟨_, by simp [deepMembers], .lastMember member.1 hmember blank⟩
      | cons next rest =>
          obtain ⟨inner, heq, hrest⟩ := ih (List.cons_ne_nil _ _) fun other member =>
            h other (List.mem_cons_of_mem _ member)
          simp only [List.append_assoc] at heq
          exact ⟨_, by simp [deepMembers, heq],
            .member member.1 hmember (isGap_newLine level) hrest⟩

/-- The deep layout of a legible value spells it, at every level. -/
theorem spells_deepChars (value : Json) (legible : value.All Legible) (level : Nat) :
    Spells (.value value) (deepChars level value) := by
  refine All.induction (motive := fun value => ∀ level, Spells (.value value) (deepChars level value))
    ?_ ?_ ?_ value legible level
  · intro value noItems noMembers legible level
    have hatom := spells_atomText noItems noMembers legible
    cases value with
    | arr items => exact absurd rfl (noItems items)
    | obj members => exact absurd rfl (noMembers members)
    | _ => simpa only [deepChars] using hatom
  · intro items _ h level
    cases items with
    | nil =>
        rw [deepChars]
        exact .noItems
    | cons item rest =>
        obtain ⟨inner, heq, hinner⟩ := spells_deepItems (List.cons_ne_nil _ _) (level + 1)
          (isGap_newLine level) h
        have harr := Spells.arr (isGap_newLine (level + 1)) hinner
        rw [List.cons_append, ← heq] at harr
        simpa only [deepChars, List.cons_append] using harr
  · intro members distinct h level
    cases members with
    | nil =>
        rw [deepChars]
        exact .noMembers
    | cons member rest =>
        obtain ⟨inner, heq, hinner⟩ := spells_deepMembers (List.cons_ne_nil _ _) (level + 1)
          (isGap_newLine level) h
        have hobj := Spells.obj (isGap_newLine (level + 1)) distinct hinner
        rw [List.cons_append, ← heq] at hobj
        simpa only [deepChars, List.cons_append] using hobj

/-- A legible value is read back from both of its texts. -/
theorem read_flatText {value : Json} (legible : value.All Legible) :
    read (flatText value) = .ok value :=
  read_of_spells (spells_flatChars value legible)

theorem read_deepText {value : Json} (legible : value.All Legible) :
    read (deepText value) = .ok value :=
  read_of_spells (spells_deepChars value legible 0)

end Json

end BrowserSteps
