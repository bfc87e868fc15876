import BrowserSteps.Proofs.Pattern.Literal
import BrowserSteps.Proofs.Step.RoundTrip
import BrowserSteps.Template.Substitution

/-!
Filling in a document. A key is replaced in the raw text, which knows nothing of strings. A key of
letters, digits and underscores that begins with an underscore still occurs in the strings of a
document only: no field name, no word of the format, no number and no escape has an underscore, and
no string ends within the key. Each string is therefore filled in by itself.
-/

namespace BrowserSteps

open Pattern Json

namespace Template

/-- A word of ASCII letters, digits and underscores that begins with an underscore. -/
structure IsMark (word : List Char) : Prop where
  head : word.head? = some '_'
  wordlike : ∀ c ∈ word, c.isAlphanum = true ∨ c = '_'

instance (word : List Char) : Decidable (IsMark word) :=
  have : Decidable (∀ c ∈ word, c.isAlphanum = true ∨ c = '_') := List.decidableBAll _ word
  decidable_of_iff (word.head? = some '_' ∧ ∀ c ∈ word, c.isAlphanum = true ∨ c = '_')
    ⟨fun h => ⟨h.1, h.2⟩, fun h => ⟨h.head, h.wordlike⟩⟩

/-- A text that stands in a JSON string as it is. -/
def IsPlain (value : List Char) : Prop := ∀ c ∈ value, c ≠ '"' ∧ c ≠ '\\' ∧ 0x20 ≤ c.toNat

instance (value : List Char) : Decidable (IsPlain value) :=
  List.decidableBAll (fun c => c ≠ '"' ∧ c ≠ '\\' ∧ 0x20 ≤ c.toNat) value

theorem escapeChar_of_plain {c : Char} (h : c ≠ '"' ∧ c ≠ '\\' ∧ 0x20 ≤ c.toNat) :
    escapeChar c = [c] := by
  obtain ⟨quote, backslash, high⟩ := h
  have hne {d : Char} (low : d.toNat < 0x20) : c ≠ d := by
    rintro rfl
    omega
  have notControl : ¬ c.toNat < 0x20 := by omega
  simp [escapeChar, quote, backslash, hne (d := '\n') (by decide), hne (d := '\r') (by decide),
    hne (d := '\t') (by decide), hne (d := '\x08') (by decide), hne (d := '\x0c') (by decide),
    notControl]

theorem IsPlain.flatMap_escapeChar {value : List Char} (plain : IsPlain value) :
    value.flatMap escapeChar = value := by
  induction value with
  | nil => rfl
  | cons c value ih =>
      rw [List.flatMap_cons, escapeChar_of_plain (plain c List.mem_cons_self),
        ih fun d member => plain d (List.mem_cons_of_mem _ member)]
      rfl

/-- An underscore is written as itself, and no other character has one in what is written of it. -/
theorem underscore_mem_escapeChar {c : Char} (h : '_' ∈ escapeChar c) : escapeChar c = [c] := by
  rcases escapeChar_cases c with ⟨short, hshort, -, heq⟩ | ⟨control, heq⟩ | ⟨-, -, -, heq⟩
  · rw [heq] at h
    obtain rfl : '_' = short := by simpa using h
    cases hshort
  · rw [heq] at h
    have noUnderscore : '_' ∉ '\\' :: 'u' :: Text.hexPadded 4 c.toNat := by
      generalize c.toNat = n at control
      interval_cases n <;> decide
    exact absurd h noUnderscore
  · exact heq

theorem isPlain_of_wordlike {c : Char} (h : c.isAlphanum = true ∨ c = '_') :
    c ≠ '"' ∧ c ≠ '\\' ∧ 0x20 ≤ c.toNat := by
  rcases h with alphanum | rfl
  · refine ⟨?_, ?_, ?_⟩
    · rintro rfl
      cases alphanum
    · rintro rfl
      cases alphanum
    · have controls : ∀ n < 0x20, (Char.ofNat n).isAlphanum = false := by decide
      by_contra below
      have other := controls c.toNat (Nat.lt_of_not_le below)
      rw [Char.ofNat_toNat, alphanum] at other
      cases other
  · decide

theorem IsMark.isPlain {word : List Char} (mark : IsMark word) : IsPlain word :=
  fun c member => isPlain_of_wordlike (mark.wordlike c member)

theorem IsMark.noSign {word : List Char} (mark : IsMark word) :
    ∀ c ∈ word, isSign c = false := by
  intro c member
  rcases mark.wordlike c member with alphanum | rfl
  · rw [← Bool.not_eq_true]
    intro sign
    have known : c ∈ "\\[\x7b()*+?^$|.".toList := by simpa [isSign] using sign
    have others : ("\\[\x7b()*+?^$|.".toList.all fun d => !d.isAlphanum) = true := by decide
    have hc := List.all_eq_true.mp others c known
    rw [alphanum] at hc
    cases hc
  · decide

section

variable {word : List Char}

theorem IsMark.ne_nil (mark : IsMark word) : word ≠ [] := by
  rintro rfl
  cases mark.head

theorem IsMark.eq_underscore (mark : IsMark word) {c : Char} {text : List Char}
    (begins : word <+: c :: text) : c = '_' := by
  obtain ⟨rest, hrest⟩ := begins
  cases word with
  | nil => cases mark.head
  | cons d word =>
      obtain rfl := Option.some.inj mark.head
      exact (List.cons.inj hrest).1.symm

/-- Within a string a mark begins where it begins among the characters that the string stands for:
escapes do not make one, and none goes on behind the end of the string. -/
theorem prefix_escaped_iff (plain : IsPlain word) (s rest : List Char) :
    word <+: s.flatMap escapeChar ++ '"' :: rest ↔ word <+: s := by
  induction word generalizing s with
  | nil => simp
  | cons c word ih =>
      have hc := plain c List.mem_cons_self
      have hword : IsPlain word := fun d member => plain d (List.mem_cons_of_mem _ member)
      cases s with
      | nil => simp [List.cons_prefix_cons, hc.1]
      | cons d s =>
          rw [List.flatMap_cons, List.append_assoc, List.cons_prefix_cons]
          -- An escape begins with a backslash, which is no character of the word.
          have written (escaped : List Char) (heq : escapeChar d = '\\' :: escaped) :
              c :: word <+: escapeChar d ++ (s.flatMap escapeChar ++ '"' :: rest) ↔
                c = d ∧ word <+: s := by
            have other : c ≠ d := by
              rintro rfl
              rw [escapeChar_of_plain hc] at heq
              exact hc.2.1 (List.cons.inj heq).1
            rw [heq, List.cons_append, List.cons_prefix_cons]
            simp [hc.2.1, other]
          rcases escapeChar_cases d with ⟨short, -, -, heq⟩ | ⟨-, heq⟩ | ⟨-, -, -, heq⟩
          · exact written _ heq
          · exact written _ heq
          · rw [heq, List.singleton_append, List.cons_prefix_cons, ih hword]

end

section

variable {word : List Char} (value : List Char)

/-- Whatever follows a text, filling in turns it into another one and goes on behind it. -/
def FilledAs (word value text filled : List Char) : Prop :=
  ∀ rest, replaceWord word value (text ++ rest) = filled ++ replaceWord word value rest

variable {value} in
theorem FilledAs.append {text more filled others : List Char} (h : FilledAs word value text filled)
    (hmore : FilledAs word value more others) :
    FilledAs word value (text ++ more) (filled ++ others) := by
  intro rest
  rw [List.append_assoc, h, hmore, List.append_assoc]

theorem FilledAs.replaceWord_eq (mark : IsMark word) {text filled : List Char}
    (h : FilledAs word value text filled) : replaceWord word value text = filled := by
  have hend := h []
  rwa [List.append_nil, replaceWord_nil value mark.ne_nil, List.append_nil] at hend

/-- A text without an underscore stays. -/
theorem filledAs_self (mark : IsMark word) {text : List Char} (unmarked : '_' ∉ text) :
    FilledAs word value text text := by
  induction text with
  | nil => exact fun _ => rfl
  | cons c text ih =>
      intro rest
      have other : ¬ word <+: c :: (text ++ rest) := fun begins =>
        unmarked (by rw [mark.eq_underscore begins]; exact List.mem_cons_self)
      rw [List.cons_append, replaceWord_cons value other,
        ih fun member => unmarked (List.mem_cons_of_mem _ member)]
      rfl

/-- The characters of a string are filled in as if they stood alone, up to the closing mark. -/
theorem filledAs_escaped (mark : IsMark word) (plain : IsPlain value) (s : List Char) :
    FilledAs word value (s.flatMap escapeChar ++ ['"'])
      ((replaceWord word value s).flatMap escapeChar ++ ['"']) := by
  intro rest
  simp only [List.append_assoc, List.singleton_append]
  -- By the length, since behind a replaced word the scan goes on with what is left of the string.
  induction hlength : s.length using Nat.strongRecOn generalizing s with
  | ind n ih =>
      subst hlength
      by_cases begins : word <+: s
      · obtain ⟨tail, rfl⟩ := begins
        have shorter : tail.length < (word ++ tail).length := by
          have := List.length_pos_iff.mpr mark.ne_nil
          rw [List.length_append]
          omega
        rw [replaceWord_word value mark.ne_nil, List.flatMap_append, List.flatMap_append,
          mark.isPlain.flatMap_escapeChar, plain.flatMap_escapeChar, List.append_assoc,
          replaceWord_word value mark.ne_nil, ih _ shorter _ rfl, List.append_assoc]
      · cases s with
        | nil =>
            have hquote : FilledAs word value ['"'] ['"'] := filledAs_self value mark (by decide)
            rw [replaceWord_nil value mark.ne_nil]
            exact hquote rest
        | cons c s =>
            have hrest := ih _ (Nat.lt_succ_self s.length) s rfl
            -- Only a character that stands for itself can begin a word, and this one does not.
            have hescape : replaceWord word value
                (escapeChar c ++ (s.flatMap escapeChar ++ '"' :: rest)) =
                  escapeChar c ++ replaceWord word value (s.flatMap escapeChar ++ '"' :: rest) := by
              by_cases underscore : '_' ∈ escapeChar c
              · have heq := underscore_mem_escapeChar underscore
                have other : ¬ word <+: c :: (s.flatMap escapeChar ++ '"' :: rest) := by
                  have := mt (prefix_escaped_iff mark.isPlain (c :: s) rest).mp begins
                  rwa [List.flatMap_cons, heq, List.append_assoc] at this
                rw [heq, List.singleton_append, replaceWord_cons value other]
                rfl
              · exact filledAs_self value mark underscore _
            rw [replaceWord_cons value begins, List.flatMap_cons, List.flatMap_cons,
              List.append_assoc, hescape, hrest, List.append_assoc]

/-- A text in which a word is replaced. -/
def fill (word value : List Char) (s : String) : String :=
  String.ofList (replaceWord word value s.toList)

theorem filledAs_stringText (mark : IsMark word) (plain : IsPlain value) (s : String) :
    FilledAs word value (stringText s) (stringText (fill word value s)) := by
  have hquote : FilledAs word value ['"'] ['"'] := filledAs_self value mark (by decide)
  have hstring := hquote.append (filledAs_escaped value mark plain s.toList)
  simpa only [stringText, fill, String.toList_ofList, List.cons_append, List.nil_append]
    using hstring

theorem fill_of_unmarked (mark : IsMark word) {s : String} (unmarked : '_' ∉ s.toList) :
    fill word value s = s := by
  rw [fill, (filledAs_self value mark unmarked).replaceWord_eq value mark, String.ofList_toList]

end

end Template

namespace Json

mutual

/-- Changes the strings in a value, but not the keys of its objects. -/
def mapTexts (f : String → String) : Json → Json
  | .str s => .str (f s)
  | .arr items => .arr (mapItems f items)
  | .obj members => .obj (mapMembers f members)
  | atom => atom

def mapItems (f : String → String) : List Json → List Json
  | [] => []
  | item :: rest => mapTexts f item :: mapItems f rest

def mapMembers (f : String → String) : List (String × Json) → List (String × Json)
  | [] => []
  | (key, value) :: rest => (key, mapTexts f value) :: mapMembers f rest

end

theorem mapItems_eq_map (f : String → String) (items : List Json) :
    mapItems f items = items.map (mapTexts f) := by
  induction items with
  | nil => rfl
  | cons item rest ih => rw [mapItems, ih, List.map_cons]

theorem map_fst_mapMembers (f : String → String) (members : List (String × Json)) :
    (mapMembers f members).map (·.1) = members.map (·.1) := by
  induction members with
  | nil => rfl
  | cons member rest ih => rw [mapMembers, List.map_cons, List.map_cons, ih]

def Part.mapTexts (f : String → String) : Part → Part
  | .value v => .value (v.mapTexts f)
  | .items vs => .items (mapItems f vs)
  | .members ms => .members (mapMembers f ms)

/-- No key of an object has an underscore. -/
def KeysUnmarked : Json → Prop
  | .obj members => ∀ member ∈ members, '_' ∉ member.1.toList
  | _ => True

def Part.KeysUnmarked : Part → Prop
  | .value v => v.All Json.KeysUnmarked
  | .items vs => AllItems Json.KeysUnmarked vs
  | .members ms => (∀ member ∈ ms, '_' ∉ member.1.toList) ∧ AllMembers Json.KeysUnmarked ms

end Json

namespace Template

variable {word : List Char} (value : List Char)

theorem filledAs_gap (mark : IsMark word) {gap : List Char} (blank : IsGap gap) :
    FilledAs word value gap gap :=
  filledAs_self value mark fun member => absurd (blank '_' member) (by decide)

theorem filledAs_int (mark : IsMark word) (n : Int) :
    FilledAs word value (toString n).toList (toString n).toList := by
  have unmarked : '_' ∉ Nat.toDigits 10 n.natAbs := fun member =>
    absurd (isDigit_of_mem_toDigits '_' member) (by decide)
  refine filledAs_self value mark ?_
  rw [toList_toString_int]
  split
  · exact unmarked
  · exact fun member => (List.mem_cons.mp member).elim nofun unmarked

theorem filledAs_key (mark : IsMark word) (plain : IsPlain value) {key : String}
    (unmarked : '_' ∉ key.toList) :
    FilledAs word value (stringText key) (stringText key) := by
  have h := filledAs_stringText value mark plain key
  rwa [fill_of_unmarked value mark unmarked] at h

/-- A spelling is filled in to a spelling of the same value with its strings filled in, if no key of an
object has an underscore. -/
theorem exists_filledAs (mark : IsMark word) (plain : IsPlain value) {part : Part} {text : List Char}
    (h : Spells part text) (keys : part.KeysUnmarked) :
    ∃ filled, Spells (part.mapTexts (fill word value)) filled ∧ FilledAs word value text filled := by
  have sign (text : List Char) (unmarked : '_' ∉ text) : FilledAs word value text text :=
    filledAs_self value mark unmarked
  induction h with
  | null => exact ⟨_, .null, sign _ (by decide)⟩
  | bool b => exact ⟨_, .bool b, sign _ (by cases b <;> decide)⟩
  | @int n small => exact ⟨_, .int small, filledAs_int value mark n⟩
  | str s => exact ⟨_, .str _, filledAs_stringText value mark plain s⟩
  | noItems => exact ⟨_, .noItems, sign _ (by decide)⟩
  | noMembers => exact ⟨_, .noMembers, sign _ (by decide)⟩
  | @arr gap _ items blank inner ih =>
      obtain ⟨filled, spelled, hfilled⟩ := ih keys.2
      have hopening : FilledAs word value ('[' :: gap) ('[' :: gap) :=
        (sign ['['] (by decide)).append (filledAs_gap value mark blank)
      exact ⟨_, .arr blank spelled, hopening.append hfilled⟩
  | @obj gap _ members blank distinct inner ih =>
      obtain ⟨filled, spelled, hfilled⟩ := ih keys
      have hopening : FilledAs word value ('\x7b' :: gap) ('\x7b' :: gap) :=
        (sign ['\x7b'] (by decide)).append (filledAs_gap value mark blank)
      refine ⟨_, .obj blank ?_ spelled, hopening.append hfilled⟩
      rwa [map_fst_mapMembers]
  | lastItem spelled blank ih =>
      obtain ⟨filled, hspelled, hfilled⟩ := ih keys.1
      exact ⟨_, .lastItem hspelled blank,
        (hfilled.append (filledAs_gap value mark blank)).append (sign _ (by decide))⟩
  | item spelled blank onward ih ihMore =>
      obtain ⟨filled, hspelled, hfilled⟩ := ih keys.1
      obtain ⟨more, hmore, hfilledMore⟩ := ihMore keys.2
      have hcomma := (sign [','] (by decide)).append (filledAs_gap value mark blank)
      exact ⟨_, .item hspelled blank hmore, (hfilled.append hcomma).append hfilledMore⟩
  | lastMember key spelled blank ih =>
      obtain ⟨filled, hspelled, hfilled⟩ := ih keys.2.1
      have hkey := (filledAs_key value mark plain (keys.1 _ List.mem_cons_self)).append
        (sign [':', ' '] (by decide))
      refine ⟨_, .lastMember key hspelled blank, ?_⟩
      have h := ((hkey.append hfilled).append (filledAs_gap value mark blank)).append
        (sign ['\x7d'] (by decide))
      simpa only [List.append_assoc, List.cons_append, List.nil_append] using h
  | member key spelled blank onward ih ihMore =>
      obtain ⟨filled, hspelled, hfilled⟩ := ih keys.2.1
      obtain ⟨more, hmore, hfilledMore⟩ := ihMore
        ⟨fun other among => keys.1 other (List.mem_cons_of_mem _ among), keys.2.2⟩
      have hkey := (filledAs_key value mark plain (keys.1 _ List.mem_cons_self)).append
        (sign [':', ' '] (by decide))
      have hcomma := (sign [','] (by decide)).append (filledAs_gap value mark blank)
      refine ⟨_, .member key hspelled blank hmore, ?_⟩
      have h := ((hkey.append hfilled).append hcomma).append hfilledMore
      simpa only [List.append_assoc, List.cons_append, List.nil_append] using h

end Template

end BrowserSteps
