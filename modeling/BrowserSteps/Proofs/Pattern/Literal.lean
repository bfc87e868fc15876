import BrowserSteps.Proofs.Pattern.Word

/-!
Patterns without signs. Such a pattern is read as the chain of its characters, matches where they stand
one after the other, and so replaces what replacing the word would.
-/

namespace BrowserSteps.Pattern

/-- The pattern of one character. -/
def Node.literal (c : Char) : Node := .one (.single .exact c)

theorem tokens?_of_noSign {key : List Char} (noSign : ∀ c ∈ key, isSign c = false) :
    tokens? key = some (key.map .plain) := by
  induction key with
  | nil => rfl
  | cons c key ih =>
      have hc := noSign c List.mem_cons_self
      have noBackslash : c ≠ '\\' := by
        rintro rfl
        cases hc
      have hrest := ih fun d member => noSign d (List.mem_cons_of_mem _ member)
      simp [tokens?, noBackslash, hrest]

theorem run_get (p : Progress) : (get : Parse Progress) p = .ok (p, p) := rfl

theorem run_peek (p : Progress) : peek p = .ok (p.rest.head?, p) := rfl

theorem run_take {p : Progress} {t : Token} {rest : List Token} (h : p.rest = t :: rest) :
    take p = .ok (some t, { p with rest }) := by
  obtain ⟨_, _, _, _, _, _, _⟩ := p
  cases h
  rfl

/-- A character that is no sign is an item of its own. -/
theorem sequence_plain {c : Char} (noSign : isSign c = false) {p : Progress} {rest : List Token}
    (here : p.rest = .plain c :: rest) (first : Bool) (done : List Node) (bound : Nat) :
    sequence {} first done (bound + 1) p =
      sequence {} first (Node.literal c :: done) bound { p with rest } := by
  have noBar : c ≠ '|' := by
    rintro rfl
    exact absurd noSign (by decide)
  have noClosing : c ≠ ')' := by
    rintro rfl
    exact absurd noSign (by decide)
  rw [sequence]
  simp only [bind, StateT.bind, run_peek, here, List.head?_cons, Except.bind]
  simp only [run_take here, noSign, Bool.not_false, if_true, Bool.false_and, Bool.false_eq_true,
    if_false]
  rfl

/-- Characters that are no signs are read one after the other, to the end. -/
theorem sequence_of_noSign {key : List Char} (noSign : ∀ c ∈ key, isSign c = false) {bound : Nat}
    (enough : key.length < bound) (first : Bool) (done : List Node) (p : Progress)
    (rest : p.rest = key.map .plain) :
    sequence {} first done bound p =
      .ok (done.reverse ++ key.map Node.literal, { p with rest := [] }) := by
  induction key generalizing bound done p with
  | nil =>
      obtain ⟨bound, rfl⟩ := Nat.exists_eq_add_one_of_ne_zero (Nat.ne_zero_of_lt enough)
      have hp : p = { p with rest := [] } := by
        rw [← List.map_nil (f := Token.plain), ← rest]
      rw [sequence]
      simp only [bind, StateT.bind, run_peek, rest, List.map_nil, List.head?_nil]
      rw [List.append_nil, ← hp]
      rfl
  | cons c key ih =>
      obtain ⟨bound, rfl⟩ := Nat.exists_eq_add_one_of_ne_zero (Nat.ne_zero_of_lt enough)
      rw [sequence_plain (noSign c List.mem_cons_self) rest,
        ih (fun d member => noSign d (List.mem_cons_of_mem _ member)) (Nat.lt_of_succ_lt_succ enough)
          _ _ rfl]
      simp

theorem run_skip_of_end (c : Char) {p : Progress} (ended : p.rest = []) :
    skip c p = .ok (false, p) := by
  simp only [skip, bind, StateT.bind, run_peek, ended, List.head?_nil, Except.bind]
  rfl

/-- A pattern without signs has one branch, which is the chain of its characters. -/
theorem alternatives_of_noSign {key : List Char} (noSign : ∀ c ∈ key, isSign c = false) {bound : Nat}
    (enough : key.length < bound) :
    alternatives true {} (bound + 2) { rest := key.map .plain } =
      .ok (.chain (key.map Node.literal), { rest := [] }) := by
  have hsequence := sequence_of_noSign noSign enough true [] { rest := key.map .plain } rfl
  have hbranches : branches true {} true (bound + 1) { rest := key.map .plain } =
      .ok ([.chain (key.map Node.literal)], { rest := [] }) := by
    have hskip : skip '|' { rest := [] } = .ok (false, { rest := [] }) := run_skip_of_end '|' rfl
    rw [branches]
    simp only [bind, StateT.bind, run_get, Except.bind, if_true, Bool.and_self, hsequence, hskip]
    rfl
  rw [alternatives]
  simp only [bind, StateT.bind, hbranches, Except.bind]
  rfl

/-- A pattern without signs is the chain of its characters. -/
theorem read_of_noSign {key : String} (noSign : ∀ c ∈ key.toList, isSign c = false) :
    read key = .ok (.chain (key.toList.map Node.literal)) := by
  have hbound : 4 * (key.toList.map Token.plain).length + 8 = (4 * key.toList.length + 6) + 2 := by
    simp
  have enough : key.toList.length < 4 * key.toList.length + 6 := by omega
  have halternatives := alternatives_of_noSign noSign enough
  simp only [read, tokens?_of_noSign noSign, hbound, whole, StateT.run', bind, StateT.bind]
  rw [halternatives]
  rfl

/-- The position some characters further. -/
def Cursor.skip (s : Cursor) (n : Nat) : Cursor :=
  { s with
    index := s.index + n
    before := (s.after.take n).reverse ++ s.before
    after := s.after.drop n }

theorem Cursor.next?_skip {s : Cursor} {c : Char} {rest : List Char} (here : s.after = c :: rest) :
    s.next? = some (c, s.skip 1) := by
  simp [next?, here, skip]

theorem Cursor.skip_zero (s : Cursor) : s.skip 0 = s := rfl

theorem Cursor.skip_skip (s : Cursor) (m n : Nat) : (s.skip m).skip n = s.skip (m + n) := by
  simp [skip, Nat.add_assoc, List.take_add]

/-- A chain of characters matches them one after the other. -/
theorem runChain_literal (key : List Char) (s : Cursor) (rest : Rest) :
    runChain (key.map Node.literal) s rest =
      if key <+: s.after then rest (s.skip key.length) else none := by
  induction key generalizing s with
  | nil => simp [runChain, Cursor.skip]
  | cons c key ih =>
      simp only [List.map_cons, runChain, Node.literal, Node.run]
      cases hafter : s.after with
      | nil => simp [Cursor.next?, hafter]
      | cons d text =>
          have hset : (CharSet.single .exact c).contains d = true ↔ c = d := by
            simp [CharSet.contains, CharSet.single, Item.contains, Folding.fold, eq_comm]
          have hskip : (s.skip 1).after = text := by simp [Cursor.skip, hafter]
          simp only [Cursor.next?_skip hafter, hset, ih, hskip, Cursor.skip_skip, List.length_cons,
            Nat.add_comm 1, List.cons_prefix_cons]
          split <;> simp [*]

/-- A match of a word takes something, and so is accepted wherever it begins. -/
theorem run_literal {key : List Char} (nonempty : key ≠ []) (s start : Cursor) (advance : Bool) :
    (Node.chain (key.map Node.literal)).run start (Node.search.accept s advance start) =
      if key <+: start.after then some (start.skip key.length) else none := by
  have accepted : Node.search.accept s advance start (start.skip key.length) =
      some (start.skip key.length) := by
    simp [Node.search.accept, Cursor.skip, nonempty]
  rw [Node.run, runChain_literal, accepted]

/-- The search goes on up to a place at which the word begins, or to the end of the text. -/
theorem search_go_literal {key : List Char} (nonempty : key ≠ []) (s : Cursor) (advance : Bool)
    {text : List Char} {start : Cursor} (here : start.after = text) :
    Node.search.go (.chain (key.map Node.literal)) s advance text start =
      if key <+: text then some (start, start.skip key.length)
      else match text with
        | [] => none
        | _ :: rest =>
          Node.search.go (.chain (key.map Node.literal)) s advance rest (start.skip 1) := by
  have hrun := run_literal nonempty s start advance
  rw [here] at hrun
  by_cases begins : key <+: text
  · cases text <;> simp [Node.search.go, hrun, begins]
  · cases text with
    | nil => simp [Node.search.go, hrun, begins]
    | cons c rest => simp [Node.search.go, hrun, begins, Cursor.next?_skip here]

/-- What a search answers, and what it means for the replacement: without a match nothing is replaced;
otherwise the text before the match stays, and the rest behind the match is shorter. -/
theorem replaceWord_of_search {key : List Char} (nonempty : key ≠ []) (value : List Char) (s : Cursor)
    (advance : Bool) {text : List Char} {n : Nat} (here : (s.skip n).after = text) :
    match Node.search.go (.chain (key.map Node.literal)) s advance text (s.skip n) with
    | none => s.after = s.after.take n ++ replaceWord key value text
    | some (start, later) =>
      later.index ≠ start.index ∧ later.after.length < text.length ∧
        s.taken start ++ value ++ replaceWord key value later.after =
          s.after.take n ++ replaceWord key value text := by
  have hdrop : s.after.drop n = text := here
  -- On the text ahead; the characters that the search has passed are what stays.
  induction text generalizing n with
  | nil =>
      have noWord : ¬ key <+: [] := by simpa using nonempty
      rw [search_go_literal nonempty s advance here, if_neg noWord]
      simp only [replaceWord_nil value nonempty, List.append_nil]
      exact (List.take_of_length_le (List.drop_eq_nil_iff.mp hdrop)).symm
  | cons c rest ih =>
      rw [search_go_literal nonempty s advance here]
      by_cases begins : key <+: c :: rest
      · obtain ⟨tail, htail⟩ := begins
        have positive := List.length_pos_iff.mpr nonempty
        have hlater : ((s.skip n).skip key.length).after = tail := by
          rw [Cursor.skip, here, ← htail]
          exact List.drop_left
        have hindex : ((s.skip n).skip key.length).index ≠ (s.skip n).index :=
          Nat.ne_of_gt (Nat.lt_add_of_pos_right positive)
        have htaken : s.taken (s.skip n) = s.after.take n := by simp [Cursor.taken, Cursor.skip]
        have hlength := congrArg List.length htail
        rw [List.length_append] at hlength
        rw [if_pos ⟨tail, htail⟩]
        simp only [hlater, htaken]
        refine ⟨hindex, by omega, ?_⟩
        rw [← htail, replaceWord_word value nonempty, List.append_assoc]
      · have hrest : s.after.drop (n + 1) = rest := by
          rw [← List.drop_drop, hdrop]
          rfl
        have hsame : s.after.take (n + 1) ++ replaceWord key value rest =
            s.after.take n ++ replaceWord key value (c :: rest) := by
          have hhead : s.after[n]? = some c := by
            rw [← Nat.add_zero n, ← List.getElem?_drop, hdrop]
            rfl
          rw [replaceWord_cons value begins, List.take_add_one, hhead, List.append_assoc]
          rfl
        have hnext := ih (n := n + 1) hrest hrest
        rw [hsame] at hnext
        rw [if_neg begins]
        simp only [Cursor.skip_skip]
        cases hsearch : Node.search.go (.chain (key.map Node.literal)) s advance rest
            (s.skip (n + 1)) with
        | none => simpa only [hsearch] using hnext
        | some found =>
            simp only [hsearch] at hnext ⊢
            exact ⟨hnext.1, Nat.lt_succ_of_lt hnext.2.1, hnext.2.2⟩

/-- Replacing what a pattern without signs matches is replacing the word. -/
theorem replaceAll_literal {key : List Char} (nonempty : key ≠ []) (value text : List Char) :
    (Node.chain (key.map Node.literal)).replaceAll value text = replaceWord key value text := by
  have hfrom (bound : Nat) (s : Cursor) (advance : Bool) (enough : s.after.length < bound) :
      (Node.chain (key.map Node.literal)).replaceFrom value bound s advance =
        replaceWord key value s.after := by
    induction bound generalizing s advance with
    | zero => exact absurd enough (Nat.not_lt_zero _)
    | succ bound ih =>
        have hsearch := replaceWord_of_search nonempty value { s with groups := [] } advance
          (n := 0) rfl
        simp only [Cursor.skip_zero, List.take_zero, List.nil_append] at hsearch
        rw [Node.replaceFrom, Node.search]
        split at hsearch
        next hnone =>
          rw [hnone]
          exact hsearch
        next start later hsome =>
          obtain ⟨moved, shorter, replaced⟩ := hsearch
          rw [hsome, ← replaced, ← ih later (decide (later.index = start.index))
            (Nat.lt_of_lt_of_le shorter (Nat.le_of_lt_succ enough))]
          rfl
  exact hfrom _ { after := text } false (by simp only; omega)

/-- The empty pattern matches at the very position, or behind the next character where a match has to move
on. -/
theorem search_empty (s : Cursor) (advance : Bool) :
    (Node.chain []).search s advance =
      if advance then s.next?.map fun (_, later) => (later, later) else some (s, s) := by
  have hrun (start : Cursor) : (Node.chain []).run start (Node.search.accept s advance start) =
      if advance && start.index = s.index then none else some start := by
    simp [Node.run, runChain, Node.search.accept]
  cases advance with
  | false =>
      rw [Node.search]
      cases hafter : s.after <;> simp [Node.search.go, hrun]
  | true =>
      cases hafter : s.after with
      | nil => simp [Node.search, Node.search.go, hafter, hrun, Cursor.next?]
      | cons c rest =>
          have hnext := Cursor.next?_skip hafter
          have moved : (s.skip 1).index ≠ s.index := Nat.succ_ne_self s.index
          rw [Node.search, hafter, Node.search.go]
          simp only [hrun, hnext]
          cases rest <;> simp [Node.search.go, hrun, moved]

/-- Replacing what the empty pattern matches puts the value between all characters. -/
theorem replaceAll_empty (value text : List Char) :
    (Node.chain []).replaceAll value text = interleave value text := by
  -- Behind a match at the very position the next one takes the next character along.
  have hfrom (bound : Nat) (s : Cursor) (enough : s.after.length < bound) :
      value ++ (Node.chain []).replaceFrom value bound s true = interleave value s.after := by
    induction bound generalizing s with
    | zero => exact absurd enough (Nat.not_lt_zero _)
    | succ bound ih =>
        obtain ⟨index, before, after, groups⟩ := s
        rw [Node.replaceFrom, search_empty, if_pos rfl]
        cases after with
        | nil => simp [Cursor.next?, interleave]
        | cons c rest =>
            let later : Cursor := ⟨index + 1, c :: before, rest, []⟩
            have htaken : Cursor.taken ⟨index, before, c :: rest, groups⟩ later = [c] := by
              simp [later, Cursor.taken]
            have hrest := ih later (Nat.lt_of_succ_lt_succ enough)
            simp only [Cursor.next?, Option.map_some, decide_true]
            rw [interleave, ← hrest, htaken, List.append_assoc]
            rfl
  let start : Cursor := { after := text }
  have htaken : start.taken start = [] := by simp [Cursor.taken]
  have enough : start.after.length < 2 * text.length + 1 := by
    simp only [start]
    omega
  change (Node.chain []).replaceFrom value (2 * text.length + 1 + 1) start false = _
  rw [Node.replaceFrom, search_empty, if_neg Bool.false_ne_true]
  change start.taken start ++ value ++ (Node.chain []).replaceFrom value _ start _ = _
  rw [htaken, decide_eq_true rfl]
  exact hfrom _ start enough

/-- Replacing what a pattern without signs matches is replacing the word, also the empty one. -/
theorem replaceAll_word (key value text : List Char) :
    (Node.chain (key.map Node.literal)).replaceAll value text = replaceWord key value text := by
  by_cases empty : key = []
  · subst empty
    exact replaceAll_empty value text
  · exact replaceAll_literal empty value text

end BrowserSteps.Pattern
