import BrowserSteps.Proofs.Pattern.Literal
import BrowserSteps.Template.Substitution
import Mathlib.Data.List.Basic

/-!
Where keys occur in a text. A scan from left to right cuts a text at the keys in it, into pieces that are
characters or keys; if no two occurrences overlap, the keys among the pieces are the occurrences. Filling in
one key puts its value in the place of the pieces that a scan for this key finds.
-/

namespace BrowserSteps.Template

open Pattern

/-- A piece of a text: a character, or a key in one of its places. -/
inductive Piece where
  | char (c : Char)
  | key (key : String)
  deriving DecidableEq, Repr

/-- The characters of a piece, if keys stand for texts. -/
def Piece.chars (σ : String → String) : Piece → List Char
  | .char c => [c]
  | .key k => (σ k).toList

/-- The text of pieces, if keys stand for texts. -/
def textOf (σ : String → String) (pieces : List Piece) : List Char :=
  pieces.flatMap (Piece.chars σ)

theorem textOf_cons (σ : String → String) (p : Piece) (rest : List Piece) :
    textOf σ (p :: rest) = p.chars σ ++ textOf σ rest := List.flatMap_cons

/-- The places of a key, as numbers of characters before them. -/
def places (σ : String → String) (key : String) : List Piece → List Nat
  | [] => []
  | p :: rest =>
    let behind := (places σ key rest).map (· + (p.chars σ).length)
    if p = .key key then 0 :: behind else behind

/-- Cuts a text at the keys in it. Some characters still belong to the key before. -/
def cutFrom (keys : List String) : Nat → List Char → List Piece
  | _, [] => []
  | skipped + 1, _ :: rest => cutFrom keys skipped rest
  | 0, c :: rest =>
    match keys.find? (·.toList.isPrefixOf (c :: rest)) with
    | some key => .key key :: cutFrom keys (key.length - 1) rest
    | none => .char c :: cutFrom keys 0 rest

/-- Cuts a text at the keys in it, from left to right. -/
def cut (keys : List String) (text : List Char) : List Piece := cutFrom keys 0 text

/-- A key occurs in a text behind so many characters. -/
def Occurs (key : String) (text : List Char) (i : Nat) : Prop := key.toList <+: text.drop i

instance (key : String) (text : List Char) (i : Nat) : Decidable (Occurs key text i) :=
  inferInstanceAs (Decidable (key.toList <+: text.drop i))

/-- If both keys occur there, they do not overlap, or it is one occurrence. -/
def KeptApart (key other : String) (text : List Char) (i j : Nat) : Prop :=
  Occurs key text i → Occurs other text j →
    key = other ∧ i = j ∨ i + key.length ≤ j ∨ j + other.length ≤ i

instance (key other : String) (text : List Char) (i j : Nat) :
    Decidable (KeptApart key other text i j) :=
  inferInstanceAs (Decidable (Occurs key text i → Occurs other text j →
    key = other ∧ i = j ∨ i + key.length ≤ j ∨ j + other.length ≤ i))

/-- No two occurrences of keys overlap. -/
def Apart (keys : List String) (text : List Char) : Prop :=
  ∀ key ∈ keys, ∀ other ∈ keys, ∀ i < text.length, ∀ j < text.length, KeptApart key other text i j

instance (keys : List String) (text : List Char) : Decidable (Apart keys text) :=
  inferInstanceAs (Decidable (∀ key ∈ keys, ∀ other ∈ keys, ∀ i < text.length, ∀ j < text.length,
    KeptApart key other text i j))

/-- What a scan makes of a text: it takes a key where one begins, and else a character. -/
inductive Cuts (keys : List String) : List Char → List Piece → Prop where
  | done : Cuts keys [] []
  | key {key : String} {rest : List Char} {pieces : List Piece} (member : key ∈ keys)
      (some : key ≠ "") (more : Cuts keys rest pieces) :
      Cuts keys (key.toList ++ rest) (.key key :: pieces)
  | char {c : Char} {rest : List Char} {pieces : List Piece}
      (noKey : ∀ key ∈ keys, ¬ key.toList <+: c :: rest) (more : Cuts keys rest pieces) :
      Cuts keys (c :: rest) (.char c :: pieces)

section

variable {keys : List String} {key : String} {text rest : List Char} {pieces : List Piece} {i : Nat}

theorem cutFrom_eq (keys : List String) (skipped : Nat) (text : List Char) :
    cutFrom keys skipped text = cut keys (text.drop skipped) := by
  induction text generalizing skipped with
  | nil => cases skipped <;> rfl
  | cons c rest ih =>
      cases skipped with
      | zero => rfl
      | succ skipped => exact ih skipped

theorem length_pos_of_ne_empty (some : key ≠ "") : 0 < key.length := by
  apply Nat.pos_of_ne_zero
  intro none
  exact some (String.length_eq_zero_iff.mp none)

theorem cuts_cut (nonempty : ∀ key ∈ keys, key ≠ "") (text : List Char) :
    Cuts keys text (cut keys text) := by
  -- By the length, since the scan goes on behind a key.
  induction hlength : text.length using Nat.strongRecOn generalizing text with
  | ind n ih =>
      cases text with
      | nil => exact .done
      | cons c rest =>
          subst hlength
          rw [cut, cutFrom]
          split
          next key hfind =>
            have member := List.mem_of_find?_eq_some hfind
            have positive := length_pos_of_ne_empty (nonempty key member)
            obtain ⟨begins, -⟩ := List.find?_eq_some_iff_append.mp hfind
            obtain ⟨tail, htail⟩ := List.isPrefixOf_iff_prefix.mp begins
            have hskip : rest.drop (key.length - 1) = tail := by
              have hdrop : (c :: rest).drop key.length = tail := by
                rw [← htail, ← String.length_toList, List.drop_left]
              rwa [← Nat.sub_add_cancel positive] at hdrop
            have shorter : tail.length < (c :: rest).length := by
              rw [← htail, List.length_append, String.length_toList]
              omega
            rw [cutFrom_eq, hskip, ← htail]
            exact .key member (nonempty key member) (ih _ shorter tail rfl)
          next hfind =>
            have noKey : ∀ key ∈ keys, ¬ key.toList <+: c :: rest := by
              intro key member begins
              exact List.find?_eq_none.mp hfind key member (List.isPrefixOf_iff_prefix.mpr begins)
            exact .char noKey (ih _ (Nat.lt_succ_self _) rest rfl)

/-- The pieces of a text make up the text. -/
theorem Cuts.textOf_id (h : Cuts keys text pieces) : textOf id pieces = text := by
  induction h with
  | done => rfl
  | key _ _ _ ih => exact congrArg (_ ++ ·) ih
  | char _ _ ih => exact congrArg (_ :: ·) ih

theorem Cuts.mem_keys (h : Cuts keys text pieces) : .key key ∈ pieces → key ∈ keys := by
  induction h with
  | done => nofun
  | key member _ _ ih =>
      intro hpiece
      rcases List.mem_cons.mp hpiece with same | later
      · cases same
        exact member
      · exact ih later
  | char _ _ ih =>
      intro hpiece
      rcases List.mem_cons.mp hpiece with same | later
      · cases same
      · exact ih later

theorem mem_places_cons {σ : String → String} {p : Piece} :
    i ∈ places σ key (p :: pieces) ↔
      p = .key key ∧ i = 0 ∨ ∃ j ∈ places σ key pieces, j + (p.chars σ).length = i := by
  simp only [places]
  split
  next here => simp [here]
  next elsewhere => simp [elsewhere]

theorem Occurs.lt_length (some : key ≠ "") (h : Occurs key text i) : i < text.length := by
  have hlength := h.length_le
  have positive := length_pos_of_ne_empty some
  rw [String.length_toList, List.length_drop] at hlength
  omega

theorem occurs_append_iff {front : List Char} :
    Occurs key (front ++ text) (i + front.length) ↔ Occurs key text i := by
  rw [Occurs, Occurs, Nat.add_comm, ← List.drop_drop, List.drop_left]

theorem Apart.of_append {front : List Char} (h : Apart keys (front ++ text)) : Apart keys text := by
  intro key member other hother i hi j hj hfirst hsecond
  have happart := h key member other hother (i + front.length) (by simp; omega) (j + front.length)
    (by simp; omega) (occurs_append_iff.mpr hfirst) (occurs_append_iff.mpr hsecond)
  rcases happart with ⟨same, together⟩ | before | behind
  · exact .inl ⟨same, Nat.add_right_cancel together⟩
  · exact .inr (.inl (by omega))
  · exact .inr (.inr (by omega))

/-- A key among the pieces occurs there. -/
theorem Cuts.occurs_of_mem_places (h : Cuts keys text pieces) (here : i ∈ places id key pieces) :
    Occurs key text i := by
  induction h generalizing i with
  | done => cases here
  | key _ _ _ ih | char _ _ ih =>
      rcases mem_places_cons.mp here with ⟨same, rfl⟩ | ⟨j, later, rfl⟩
      · cases same <;> exact List.prefix_append _ _
      · exact occurs_append_iff.mpr (ih later)

/-- If no occurrences overlap, a scan finds them all. -/
theorem Cuts.mem_places_iff (h : Cuts keys text pieces) (nonempty : ∀ key ∈ keys, key ≠ "")
    (apart : Apart keys text) (member : key ∈ keys) :
    i ∈ places id key pieces ↔ Occurs key text i := by
  refine ⟨h.occurs_of_mem_places, fun occurs => ?_⟩
  have some := nonempty key member
  induction h generalizing i with
  | done => exact absurd (occurs.lt_length some) (Nat.not_lt_zero i)
  | @key first rest pieces hfirst someFirst more ih =>
      rw [mem_places_cons]
      have positive := length_pos_of_ne_empty someFirst
      have begins : Occurs first (first.toList ++ rest) 0 := List.prefix_append _ _
      have hlt := occurs.lt_length some
      have htotal : 0 < (first.toList ++ rest).length := begins.lt_length someFirst
      rcases apart key member first hfirst i hlt 0 htotal occurs begins with
        ⟨rfl, rfl⟩ | before | behind
      · exact .inl ⟨rfl, rfl⟩
      · have := length_pos_of_ne_empty some
        omega
      · rw [Nat.zero_add] at behind
        have hi : i = i - first.length + first.toList.length := by
          rw [String.length_toList]
          omega
        rw [hi] at occurs
        exact .inr ⟨_, ih apart.of_append (occurs_append_iff.mp occurs), hi.symm⟩
  | @char c rest pieces noKey more ih =>
      rw [mem_places_cons]
      cases i with
      | zero => exact absurd occurs (noKey key member)
      | succ i =>
          rw [← List.singleton_append] at apart
          exact .inr ⟨i, ih apart.of_append occurs, rfl⟩

/-- At no place of a text two keys begin. -/
def Unambiguous (keys : List String) (text : List Char) : Prop :=
  ∀ key ∈ keys, ∀ other ∈ keys, ∀ rest, rest <:+ text → key.toList <+: rest →
    other.toList <+: rest → key = other

theorem Unambiguous.of_append {front : List Char} (h : Unambiguous keys (front ++ text)) :
    Unambiguous keys text := by
  intro key member other hother rest within
  exact h key member other hother rest (within.trans (List.suffix_append front text))

theorem unambiguous_singleton (key : String) (text : List Char) : Unambiguous [key] text := by
  intro first member second others _ _ _ _
  rw [List.mem_singleton.mp member, List.mem_singleton.mp others]

theorem Apart.unambiguous (h : Apart keys text) (nonempty : ∀ key ∈ keys, key ≠ "") :
    Unambiguous keys text := by
  intro key member other hother rest within hfirst hsecond
  obtain ⟨front, rfl⟩ := within
  have hkey : Occurs key (front ++ rest) (0 + front.length) := occurs_append_iff.mpr hfirst
  have hlater : Occurs other (front ++ rest) (0 + front.length) := occurs_append_iff.mpr hsecond
  have some := nonempty key member
  have someOther := nonempty other hother
  have := length_pos_of_ne_empty some
  have := length_pos_of_ne_empty someOther
  rcases h key member other hother _ (hkey.lt_length some) _ (hlater.lt_length someOther) hkey hlater
    with ⟨same, -⟩ | before | behind
  · exact same
  · omega
  · omega

/-- What a scan makes of a text is determined if no two keys begin together. -/
theorem Cuts.unique (h : Cuts keys text pieces) {others : List Piece} (other : Cuts keys text others)
    (unambiguous : Unambiguous keys text) : pieces = others := by
  induction h generalizing others with
  | done =>
      generalize hnil : ([] : List Char) = nothing at other
      cases other with
      | done => rfl
      | key _ some => exact absurd (String.toList_eq_nil_iff.mp (List.append_eq_nil_iff.mp hnil.symm).1) some
      | char => cases hnil
  | @key first rest pieces member some more ih =>
      generalize htext : first.toList ++ rest = text at other unambiguous
      cases other with
      | done => exact absurd (String.toList_eq_nil_iff.mp (List.append_eq_nil_iff.mp htext).1) some
      | @key second _ _ hsecond _ hmore =>
          have same : first = second := unambiguous first member second hsecond _ List.suffix_rfl
            ⟨rest, htext⟩ (List.prefix_append _ _)
          subst same
          obtain rfl := List.append_cancel_left htext
          rw [ih hmore unambiguous.of_append]
      | char noKey => exact absurd ⟨rest, htext⟩ (noKey first member)
  | @char c rest pieces noKey more ih =>
      generalize htext : c :: rest = text at other
      cases other with
      | done => cases htext
      | key member => exact absurd (htext ▸ List.prefix_append _ _) (noKey _ member)
      | char _ hmore =>
          obtain ⟨rfl, rfl⟩ := List.cons.inj htext
          rw [← List.singleton_append] at unambiguous
          rw [ih hmore unambiguous.of_append]

/-- The order of the keys makes no difference to a scan. -/
theorem cut_eq_of_perm {others : List String} (perm : others.Perm keys)
    (nonempty : ∀ key ∈ keys, key ≠ "") (unambiguous : Unambiguous keys text) :
    cut others text = cut keys text := by
  have same {text : List Char} {pieces : List Piece} (h : Cuts others text pieces) :
      Cuts keys text pieces := by
    induction h with
    | done => exact .done
    | key member some _ ih => exact .key (perm.mem_iff.mp member) some ih
    | char noKey _ ih => exact .char (fun key member => noKey key (perm.mem_iff.mpr member)) ih
  have hothers := cuts_cut (fun key member => nonempty key (perm.mem_iff.mp member)) text
  exact (same hothers).unique (cuts_cut nonempty text) unambiguous

end

section

variable {key : String} (some : key ≠ "")

include some

theorem cuts_cut_singleton (text : List Char) : Cuts [key] text (cut [key] text) := by
  apply cuts_cut
  intro other member
  rwa [List.mem_singleton.mp member]

theorem cut_key (rest : List Char) : cut [key] (key.toList ++ rest) = .key key :: cut [key] rest :=
  (cuts_cut_singleton some _).unique (.key List.mem_cons_self some (cuts_cut_singleton some rest))
    (unambiguous_singleton key _)

theorem cut_char {c : Char} {rest : List Char} (noKey : ¬ key.toList <+: c :: rest) :
    cut [key] (c :: rest) = .char c :: cut [key] rest := by
  apply (cuts_cut_singleton some _).unique _ (unambiguous_singleton key _)
  apply Cuts.char _ (cuts_cut_singleton some rest)
  intro other member
  rwa [List.mem_singleton.mp member]

/-- Replacing a word puts the value in the place of the pieces that a scan finds. -/
theorem replaceWord_eq_textOf (value : String) (text : List Char) :
    replaceWord key.toList value.toList text = textOf (fun _ => value) (cut [key] text) := by
  have nonempty : key.toList ≠ [] := mt String.toList_eq_nil_iff.mp some
  have hcuts := cuts_cut_singleton some text
  generalize cut [key] text = pieces at hcuts
  induction hcuts with
  | done => exact replaceWord_nil _ nonempty
  | key member _ _ ih =>
      obtain rfl := List.mem_singleton.mp member
      rw [replaceWord_word _ nonempty, ih]
      rfl
  | char noKey _ ih =>
      rw [replaceWord_cons _ (noKey key List.mem_cons_self), ih]
      rfl

/-- A key without signs replaces its own occurrences. -/
theorem substituteKey_of_noSign (noSign : ∀ c ∈ key.toList, isSign c = false) (value text : String) :
    substituteKey key value text =
      .ok (String.ofList (replaceWord key.toList value.toList text.toList)) := by
  have nonempty : key.toList ≠ [] := mt String.toList_eq_nil_iff.mp some
  simp only [substituteKey, read_of_noSign noSign, replaceAll_literal nonempty]

/-- Where a scan finds no key, it takes the characters. -/
theorem cut_append {s text : List Char}
    (noKey : ∀ i < s.length, i ∉ places id key (cut [key] (s ++ text))) :
    cut [key] (s ++ text) = s.map .char ++ cut [key] text := by
  induction s with
  | nil => rfl
  | cons c s ih =>
      have here : ¬ key.toList <+: c :: (s ++ text) := by
        rintro ⟨rest, hrest⟩
        have hfirst : 0 ∈ places id key (cut [key] (c :: s ++ text)) := by
          rw [List.cons_append, ← hrest, cut_key some]
          exact mem_places_cons.mpr (.inl ⟨rfl, rfl⟩)
        exact noKey 0 (Nat.succ_pos _) hfirst
      rw [List.cons_append, cut_char some here] at noKey ⊢
      rw [ih, List.map_cons, List.cons_append]
      intro i hi found
      exact noKey (i + 1) (Nat.succ_lt_succ hi) (mem_places_cons.mpr (.inr ⟨i, found, rfl⟩))

end

end BrowserSteps.Template
