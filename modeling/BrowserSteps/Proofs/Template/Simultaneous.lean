import BrowserSteps.Proofs.Keyed
import BrowserSteps.Proofs.Template.Occurrence
import Mathlib.Logic.Function.Basic

/-!
Filling in several keys. The keys are filled in one after the other, each in the text so far, so what one key
inserts can make or break an occurrence of a later one. If a scan for each further key finds it in
places of the template only, the result is what filling in all keys at once would give; and then the order
of the keys makes no difference.
-/

namespace BrowserSteps.Template

open Pattern

/-- The keys of a list of parameters. -/
def keysOf (params : List (String × String)) : List String := params.map (·.1)

/-- What a key stands for: its value, or itself if it has none. -/
def valueIn (params : List (String × String)) (key : String) : String :=
  (params.lookup key).getD key

/-- A scan for a key finds it in its own places only. -/
def Isolated (σ : String → String) (pieces : List Piece) (key : String) : Prop :=
  ∀ i ∈ places id key (cut [key] (textOf σ pieces)), i ∈ places σ key pieces

instance (σ : String → String) (pieces : List Piece) (key : String) :
    Decidable (Isolated σ pieces key) :=
  inferInstanceAs (Decidable (∀ i ∈ places id key (cut [key] (textOf σ pieces)), i ∈ places σ key pieces))

/-- Each further key is found in places of the template only, when the keys before it are filled in. -/
def Undisturbed (template : String) (params : List (String × String)) : Prop :=
  ∀ n : Fin params.length, 0 < n.val →
    Isolated (valueIn (params.take n)) (cut (keysOf params) template.toList) (params.get n).1

instance (template : String) (params : List (String × String)) :
    Decidable (Undisturbed template params) :=
  Nat.decidableForallFin _

/-- No value is empty or has a character of another key. -/
def Distinctive (params : List (String × String)) : Prop :=
  ∀ param ∈ params, param.2 ≠ "" ∧
    ∀ key ∈ keysOf params, key ≠ param.1 → ∀ c ∈ param.2.toList, c ∉ key.toList

section

variable {σ : String → String} {key : String} {p : Piece} {pieces : List Piece} {text : List Char}
  {i : Nat}

theorem mem_places_chars {s : List Char} : i ∈ places σ key (s.map .char ++ pieces) ↔
    ∃ j ∈ places σ key pieces, j + s.length = i := by
  induction s generalizing i with
  | nil => simp
  | cons c s ih =>
      rw [List.map_cons, List.cons_append, mem_places_cons]
      simp only [ih, reduceCtorEq, false_and, false_or, Piece.chars, List.length_cons, List.length_nil]
      constructor
      · rintro ⟨_, ⟨j, member, rfl⟩, rfl⟩
        exact ⟨j, member, by omega⟩
      · rintro ⟨j, member, rfl⟩
        exact ⟨j + s.length, ⟨j, member, rfl⟩, by omega⟩

/-- A place is not within another piece. -/
theorem le_of_mem_places (other : p ≠ .key key) (here : i ∈ places σ key (p :: pieces)) :
    (p.chars σ).length ≤ i := by
  rcases mem_places_cons.mp here with ⟨same, -⟩ | ⟨j, -, rfl⟩
  · exact absurd same other
  · exact Nat.le_add_left _ _

theorem Piece.chars_update (other : p ≠ .key key) (value : String) :
    p.chars (Function.update σ key value) = p.chars σ := by
  cases p with
  | char => rfl
  | key k =>
      have hk : k ≠ key := fun same => other (congrArg _ same)
      simp [Piece.chars, Function.update_of_ne hk]

theorem textOf_chars (s : List Char) : textOf σ (s.map .char ++ pieces) = s ++ textOf σ pieces := by
  induction s with
  | nil => rfl
  | cons c s ih => exact congrArg (c :: ·) ih

/-- One key in its turn: if a scan finds it in its own places only, these and no others get its value. -/
theorem Isolated.fill (some : key ≠ "") (unfilled : σ key = key) (isolated : Isolated σ pieces key)
    (value : String) : textOf (fun _ => value) (cut [key] (textOf σ pieces)) =
      textOf (Function.update σ key value) pieces := by
  induction pieces with
  | nil => rfl
  | cons p rest ih =>
      by_cases own : p = .key key
      · subst own
        have hchars : (Piece.key key).chars σ = key.toList := congrArg String.toList unfilled
        have hcut : cut [key] (textOf σ (.key key :: rest)) = .key key :: cut [key] (textOf σ rest) := by
          rw [textOf_cons, hchars, cut_key some]
        have hrest : Isolated σ rest key := by
          intro i found
          have positive := length_pos_of_ne_empty some
          have hplace := isolated (i + key.toList.length)
            (hcut ▸ mem_places_cons.mpr (.inr ⟨i, found, rfl⟩))
          rw [mem_places_cons, hchars, String.length_toList] at hplace
          rcases hplace with ⟨-, zero⟩ | ⟨j, later, hj⟩
          · omega
          · exact Nat.add_right_cancel hj ▸ later
        rw [hcut, textOf_cons, textOf_cons, ih hrest]
        simp [Piece.chars]
      · have noKey : ∀ i < (p.chars σ).length,
            i ∉ places id key (cut [key] (p.chars σ ++ textOf σ rest)) := by
          intro i within found
          rw [← textOf_cons] at found
          exact absurd (le_of_mem_places own (isolated i found)) (Nat.not_le.mpr within)
        have hcut : cut [key] (textOf σ (p :: rest)) =
            (p.chars σ).map .char ++ cut [key] (textOf σ rest) := by
          rw [textOf_cons, cut_append some noKey]
        have hrest : Isolated σ rest key := by
          intro i found
          have hplace := isolated (i + (p.chars σ).length)
            (hcut ▸ mem_places_chars.mpr ⟨i, found, rfl⟩)
          rcases mem_places_cons.mp hplace with ⟨same, -⟩ | ⟨j, later, hj⟩
          · exact absurd same own
          · exact Nat.add_right_cancel hj ▸ later
        rw [hcut, textOf_chars, ih hrest, textOf_cons, Piece.chars_update own]

end

/-- Fills in one key of a text. -/
def fillOne (text : List Char) (param : String × String) : List Char :=
  textOf (fun _ => param.2) (cut [param.1] text)

/-- Keys that are not empty and have no signs. -/
def Literal (keys : List String) : Prop :=
  ∀ key ∈ keys, key ≠ "" ∧ ∀ c ∈ key.toList, isSign c = false

instance (keys : List String) : Decidable (Literal keys) :=
  have (key : String) : Decidable (∀ c ∈ key.toList, isSign c = false) := List.decidableBAll _ _
  List.decidableBAll (fun key => key ≠ "" ∧ ∀ c ∈ key.toList, isSign c = false) keys

/-- Such keys are filled in one after the other, each in the text so far. -/
theorem substitute_eq_foldl {params : List (String × String)} (literal : Literal (keysOf params))
    (template : String) :
    substitute template params = .ok (String.ofList (params.foldl fillOne template.toList)) := by
  induction params generalizing template with
  | nil => simp [substitute]
  | cons param rest ih =>
      obtain ⟨key, value⟩ := param
      obtain ⟨⟨some, noSign⟩, others⟩ := List.forall_mem_cons.mp literal
      rw [substitute, substituteKey_of_noSign some noSign, replaceWord_eq_textOf some]
      have hrest := ih others (String.ofList (fillOne template.toList (key, value)))
      rw [String.toList_ofList] at hrest
      exact hrest

theorem lookup_eq_none_of_notMem {done : List (String × String)} {key : String}
    (fresh : key ∉ keysOf done) : done.lookup key = none := by
  rw [List.lookup_eq_none_iff]
  intro param member
  apply bne_iff_ne.mpr
  rintro rfl
  exact fresh (List.mem_map_of_mem member)

theorem valueIn_of_notMem {done : List (String × String)} {key : String} (fresh : key ∉ keysOf done) :
    valueIn done key = key := by
  rw [valueIn, lookup_eq_none_of_notMem fresh, Option.getD_none]

theorem valueIn_concat {done : List (String × String)} {key : String} (fresh : key ∉ keysOf done)
    (value : String) :
    valueIn (done ++ [(key, value)]) = Function.update (valueIn done) key value := by
  funext other
  rw [valueIn, List.lookup_append, Function.update_apply]
  by_cases same : other = key
  · simp [same, lookup_eq_none_of_notMem fresh]
  · have hother : [(key, value)].lookup other = none := by
      rw [List.lookup_cons, beq_false_of_ne same, List.lookup_nil]
    rw [hother, Option.or_none, if_neg same, valueIn]

/-- A key of the template is found in its places, and before the first key is filled in in no others. -/
theorem isolated_of_apart {keys : List String} {text : List Char} {key : String}
    (nonempty : ∀ key ∈ keys, key ≠ "") (apart : Apart keys text) (member : key ∈ keys) :
    Isolated id (cut keys text) key := by
  have hcuts := cuts_cut nonempty text
  intro i found
  rw [hcuts.textOf_id] at found
  have occurs := (cuts_cut_singleton (nonempty key member) text).occurs_of_mem_places found
  exact (hcuts.mem_places_iff nonempty apart member).mpr occurs

section

variable {σ : String → String} {key : String} {pieces : List Piece} {i : Nat}

/-- What stands for other texts than itself stands for one that has no character of a key. -/
def Foreign (σ : String → String) (key : String) : Prop :=
  ∀ k, σ k = k ∨ σ k ≠ "" ∧ ∀ c ∈ (σ k).toList, c ∉ key.toList

theorem prefix_append_mono {front text other : List Char} {word : List Char}
    (h : ∀ v, (∀ c ∈ v, c ∈ word) → v <+: text → v <+: other) (begins : word <+: front ++ text) :
    word <+: front ++ other := by
  induction front generalizing word with
  | nil => exact h word (fun _ member => member) begins
  | cons c front ih =>
      cases word with
      | nil => exact List.nil_prefix
      | cons d word =>
          obtain ⟨rfl, hword⟩ := List.cons_prefix_cons.mp begins
          refine List.cons_prefix_cons.mpr ⟨rfl, ih (fun v within => ?_) hword⟩
          exact h v fun c member => List.mem_cons_of_mem _ (within c member)

theorem Foreign.chars (foreign : Foreign σ key) (p : Piece) :
    p.chars σ = p.chars id ∨ p.chars σ ≠ [] ∧ ∀ c ∈ p.chars σ, c ∉ key.toList := by
  cases p with
  | char c => exact .inl rfl
  | key k =>
      rcases foreign k with same | ⟨some, others⟩
      · exact .inl (congrArg String.toList same)
      · exact .inr ⟨mt String.toList_eq_nil_iff.mp some, others⟩

/-- Characters of a key go past no value. -/
theorem Foreign.prefix_textOf (foreign : Foreign σ key) {word : List Char}
    (within : ∀ c ∈ word, c ∈ key.toList) (begins : word <+: textOf σ pieces) :
    word <+: textOf id pieces := by
  induction pieces generalizing word with
  | nil => exact begins
  | cons p rest ih =>
      rw [textOf_cons] at begins ⊢
      rcases foreign.chars p with same | ⟨some, others⟩
      · rw [← same]
        exact prefix_append_mono (fun v hv => ih fun c member => within c (hv c member)) begins
      · cases word with
        | nil => exact List.nil_prefix
        | cons c word =>
            obtain ⟨d, more, hchars⟩ := List.exists_cons_of_ne_nil some
            rw [hchars, List.cons_append, List.cons_prefix_cons] at begins
            have member : d ∈ key.toList := begins.1 ▸ within c List.mem_cons_self
            exact absurd member (others d (by simp [hchars]))

/-- Values that are foreign to a key bring no occurrence of it. -/
theorem Foreign.mem_places (foreign : Foreign σ key) (some : key ≠ "")
    (all : ∀ i, Occurs key (textOf id pieces) i → i ∈ places id key pieces)
    (occurs : Occurs key (textOf σ pieces) i) : i ∈ places σ key pieces := by
  induction pieces generalizing i with
  | nil => exact absurd (occurs.lt_length some) (Nat.not_lt_zero i)
  | cons p rest ih =>
      have hrest : ∀ i, Occurs key (textOf id rest) i → i ∈ places id key rest := by
        intro i hi
        have hplace := all (i + (p.chars id).length) (by
          rw [textOf_cons]
          exact occurs_append_iff.mpr hi)
        rcases mem_places_cons.mp hplace with ⟨rfl, zero⟩ | ⟨j, later, hj⟩
        · have positive := length_pos_of_ne_empty some
          simp only [Piece.chars, id_eq, String.length_toList] at zero
          omega
        · exact Nat.add_right_cancel hj ▸ later
      rw [textOf_cons] at occurs
      rw [mem_places_cons]
      by_cases within : i < (p.chars σ).length
      · have hdrop (others : List Char) :
            (p.chars σ ++ others).drop i = (p.chars σ).drop i ++ others :=
          List.drop_append_of_le_length (Nat.le_of_lt within)
        rw [Occurs, hdrop] at occurs
        rcases foreign.chars p with same | ⟨-, others⟩
        · have begins := prefix_append_mono (fun v hv => foreign.prefix_textOf hv) occurs
          have htemplate : Occurs key (textOf id (p :: rest)) i := by
            rw [textOf_cons, ← same, Occurs, hdrop]
            exact begins
          rcases mem_places_cons.mp (all i htemplate) with own | ⟨j, -, hj⟩
          · exact .inl own
          · rw [← same] at hj
            omega
        · -- The key would begin with a character of the value.
          rw [List.drop_eq_getElem_cons within] at occurs
          obtain ⟨c, word, hkey⟩ := List.exists_cons_of_ne_nil (mt String.toList_eq_nil_iff.mp some)
          rw [hkey, List.cons_append, List.cons_prefix_cons] at occurs
          have member : c ∈ key.toList := by
            rw [hkey]
            exact List.mem_cons_self
          rw [occurs.1] at member
          exact absurd member (others _ (List.getElem_mem within))
      · have hi : i = i - (p.chars σ).length + (p.chars σ).length := by omega
        rw [hi] at occurs
        exact .inr ⟨_, ih hrest (occurs_append_iff.mp occurs), hi.symm⟩

end

section

variable {template : String} {params : List (String × String)}

theorem nonempty_of_literal {keys : List String} (literal : Literal keys) : ∀ key ∈ keys, key ≠ "" :=
  fun key member => (literal key member).1

theorem notMem_keysOf_take (distinct : (keysOf params).Nodup) {n : Nat} (within : n < params.length) :
    params[n].1 ∉ keysOf (params.take n) := by
  have hsplit : keysOf params =
      keysOf (params.take n) ++ params[n].1 :: keysOf (params.drop (n + 1)) := by
    rw [keysOf, keysOf, keysOf, ← List.map_cons, ← List.map_append,
      ← List.drop_eq_getElem_cons within, List.take_append_drop]
  rw [hsplit] at distinct
  intro before
  exact (List.nodup_append.mp distinct).2.2 _ before _ List.mem_cons_self rfl

/-- After each turn all keys so far stand for their values, and the others for themselves. -/
theorem foldl_fillOne (distinct : (keysOf params).Nodup) (literal : Literal (keysOf params))
    (apart : Apart (keysOf params) template.toList) (undisturbed : Undisturbed template params) {n : Nat}
    (within : n ≤ params.length) :
    (params.take n).foldl fillOne template.toList =
      textOf (valueIn (params.take n)) (cut (keysOf params) template.toList) := by
  have nonempty := nonempty_of_literal literal
  induction n with
  | zero => exact (cuts_cut nonempty template.toList).textOf_id.symm
  | succ n ih =>
      have hn : n < params.length := within
      have member : params[n].1 ∈ keysOf params := List.mem_map_of_mem (List.getElem_mem hn)
      have fresh := notMem_keysOf_take distinct hn
      have isolated : Isolated (valueIn (params.take n)) (cut (keysOf params) template.toList)
          params[n].1 := by
        rcases Nat.eq_zero_or_pos n with rfl | later
        · exact isolated_of_apart nonempty apart member
        · exact undisturbed ⟨n, hn⟩ later
      rw [List.take_succ_eq_append_getElem hn, List.foldl_append, ih (Nat.le_of_lt hn),
        valueIn_concat fresh]
      exact isolated.fill (nonempty _ member) (valueIn_of_notMem fresh) _

/-- Values that have no characters of other keys disturb no key. -/
theorem undisturbed_of_distinctive (distinct : (keysOf params).Nodup) (literal : Literal (keysOf params))
    (apart : Apart (keysOf params) template.toList) (distinctive : Distinctive params) :
    Undisturbed template params := by
  intro n later
  have nonempty := nonempty_of_literal literal
  have hcuts := cuts_cut nonempty template.toList
  have member : (params.get n).1 ∈ keysOf params := List.mem_map_of_mem (List.get_mem params n)
  have foreign : Foreign (valueIn (params.take n)) (params.get n).1 := by
    intro k
    rw [valueIn]
    cases hlookup : (params.take n).lookup k with
    | none => exact .inl rfl
    | some value =>
        obtain ⟨before, after, hsplit, -⟩ := List.lookup_eq_some_iff.mp hlookup
        have entry : (k, value) ∈ params.take n := by
          rw [hsplit]
          exact List.mem_append_right _ List.mem_cons_self
        obtain ⟨someValue, others⟩ := distinctive (k, value) (List.mem_of_mem_take entry)
        refine .inr ⟨someValue, fun c hc => others _ member (fun same => ?_) c hc⟩
        apply notMem_keysOf_take distinct n.isLt
        rw [show params[n.val].1 = k from same]
        exact List.mem_map_of_mem entry
  intro i found
  have occurs := (cuts_cut_singleton (nonempty _ member) _).occurs_of_mem_places found
  apply foreign.mem_places (nonempty _ member) _ occurs
  intro i occurs
  rw [hcuts.textOf_id] at occurs
  exact (hcuts.mem_places_iff nonempty apart member).mpr occurs

/-- Filling in a template with literal keys, which do not overlap in it. They are filled in one after the
other, each in the text so far. The template falls into characters and the occurrences of keys; and in every
order of the keys in which none is disturbed, filling in is putting the values in the places of the
occurrences. Values that have no characters of other keys disturb no key in any order. -/
theorem substitute_simultaneous (distinct : (keysOf params).Nodup) (literal : Literal (keysOf params))
    (apart : Apart (keysOf params) template.toList) :
    let pieces := cut (keysOf params) template.toList
    substitute template params = .ok (String.ofList (params.foldl fillOne template.toList)) ∧
    textOf id pieces = template.toList ∧ (∀ key, .key key ∈ pieces → key ∈ keysOf params) ∧
    (∀ key ∈ keysOf params, ∀ i, i ∈ places id key pieces ↔ Occurs key template.toList i) ∧
    ∀ others : List (String × String), others.Perm params →
      (Undisturbed template others →
        substitute template others = .ok (String.ofList (textOf (valueIn params) pieces))) ∧
      (Distinctive params → Undisturbed template others) := by
  intro pieces
  have nonempty := nonempty_of_literal literal
  have hcuts : Cuts (keysOf params) template.toList pieces := cuts_cut nonempty template.toList
  refine ⟨substitute_eq_foldl literal template, hcuts.textOf_id, fun key => hcuts.mem_keys,
    fun key member i => hcuts.mem_places_iff nonempty apart member, fun others perm => ?_⟩
  have hkeys : (keysOf others).Perm (keysOf params) := perm.map _
  have distinctOthers : (keysOf others).Nodup := hkeys.nodup_iff.mpr distinct
  have literalOthers : Literal (keysOf others) := fun key member => literal key (hkeys.mem_iff.mp member)
  have apartOthers : Apart (keysOf others) template.toList :=
    fun key member other hother => apart key (hkeys.mem_iff.mp member) other (hkeys.mem_iff.mp hother)
  constructor
  · intro undisturbed
    have hpieces : cut (keysOf others) template.toList = pieces :=
      cut_eq_of_perm hkeys nonempty (apart.unambiguous nonempty)
    have hvalues : valueIn others = valueIn params := by
      funext key
      rw [valueIn, valueIn, Keyed.lookup_eq_of_perm perm distinct]
    have hfilled := foldl_fillOne distinctOthers literalOthers apartOthers undisturbed (Nat.le_refl _)
    rw [List.take_length, hpieces, hvalues] at hfilled
    rw [substitute_eq_foldl literalOthers, hfilled]
  · intro distinctive
    apply undisturbed_of_distinctive distinctOthers literalOthers apartOthers
    intro param member
    obtain ⟨some, foreign⟩ := distinctive param (perm.mem_iff.mp member)
    exact ⟨some, fun key hkey => foreign key (hkeys.mem_iff.mp hkey)⟩

end

/-- A value may have characters of another key, as long as it does not complete one. -/
theorem substitute_simultaneous_of_underscores :
    let template := "go __A__, __B__; __A__!"
    let params := [("__A__", "x_"), ("__B__", "__A")]
    (keysOf params).Nodup ∧ Literal (keysOf params) ∧ Apart (keysOf params) template.toList ∧
      Undisturbed template params ∧ Undisturbed template params.reverse ∧
      substitute template params = .ok "go x_, __A; x_!" ∧
      substitute template params.reverse = .ok "go x_, __A; x_!" := by
  intro template params
  have distinct : (keysOf params).Nodup := by decide
  have literal : Literal (keysOf params) := by decide +kernel
  have apart : Apart (keysOf params) template.toList := by decide +kernel
  have undisturbed : Undisturbed template params := by decide +kernel
  have undisturbedBack : Undisturbed template params.reverse := by decide +kernel
  have filled : String.ofList (textOf (valueIn params) (cut (keysOf params) template.toList)) =
      "go x_, __A; x_!" := by decide +kernel
  obtain ⟨-, -, -, -, orders⟩ := substitute_simultaneous distinct literal apart
  refine ⟨distinct, literal, apart, undisturbed, undisturbedBack, ?_, ?_⟩
  · rw [(orders params (.refl _)).1 undisturbed, filled]
  · rw [(orders params.reverse params.reverse_perm).1 undisturbedBack, filled]

/-- What one key inserts is filled in again if it is a later key, and so the order of the keys shows. -/
theorem value_filled_in_again :
    let params := [("A", "B"), ("B", "C")]
    (keysOf params).Nodup ∧ Literal (keysOf params) ∧ Apart (keysOf params) "A".toList ∧
      String.ofList (textOf (valueIn params) (cut (keysOf params) "A".toList)) = "B" ∧
      substitute "A" params = .ok "C" ∧ substitute "A" params.reverse = .ok "B" := by
  decide +kernel

end BrowserSteps.Template
