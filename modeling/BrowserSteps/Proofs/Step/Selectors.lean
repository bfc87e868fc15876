import BrowserSteps.Step.Basic

/-!
The selectors of a step. A text is parts with commas between them; its selectors are the parts without
the blanks around them, and the parts that are nothing but blanks are none. So neither blanks around a
part nor empty parts make a difference to the selectors.
-/

namespace BrowserSteps

theorem Text.subset_trimBy (p : Char → Bool) (s : List Char) : trimBy p s ⊆ s := by
  intro c member
  have inner := (List.dropWhile_suffix p).subset (List.mem_reverse.mp member)
  exact (List.dropWhile_suffix p).subset (List.mem_reverse.mp inner)

namespace Step

theorem commaParts_ne_nil (s : List Char) : commaParts s ≠ [] := by
  fun_cases commaParts s <;> exact List.cons_ne_nil _ _

theorem commaParts_eq_splitOn (s : List Char) : commaParts s = s.splitOn ',' := by
  rw [List.splitOn_eq_splitOnP]
  fun_induction commaParts s with
  | case1 => rfl
  | case2 rest ih => rw [List.splitOnP_cons_eq_if_modifyHead, ih]; rfl
  | case3 c rest comma none => exact absurd none (commaParts_ne_nil rest)
  | case4 c rest comma part parts split ih =>
      have hcomma : ¬ (c == ',') = true := by simpa using comma
      rw [List.splitOnP_cons_eq_if_modifyHead, if_neg hcomma, ← ih, split]
      rfl

theorem not_mem_of_mem_commaParts {s part : List Char} (member : part ∈ commaParts s) :
    ',' ∉ part := by
  fun_induction commaParts s generalizing part with
  | case1 => simp [List.mem_singleton.mp member]
  | case2 rest ih =>
      rcases List.mem_cons.mp member with rfl | later
      · exact List.not_mem_nil
      · exact ih later
  | case3 c rest comma none => exact absurd none (commaParts_ne_nil rest)
  | case4 c rest comma first others split ih =>
      rw [split] at ih
      rcases List.mem_cons.mp member with rfl | later
      · have hfirst := ih List.mem_cons_self
        simpa [hfirst] using Ne.symm comma
      · exact ih (List.mem_cons_of_mem _ later)

/-- Every text is some parts with commas between them and none inside. -/
theorem exists_parts (s : String) : ∃ parts : List String, parts ≠ [] ∧
    (∀ part ∈ parts, ',' ∉ part.toList) ∧ s = ",".intercalate parts := by
  refine ⟨(commaParts s.toList).map String.ofList, ?_, ?_, ?_⟩
  · simpa using commaParts_ne_nil s.toList
  · intro part member
    obtain ⟨chars, hchars, rfl⟩ := List.mem_map.mp member
    rw [String.toList_ofList]
    exact not_mem_of_mem_commaParts hchars
  · have hjoined : [','].intercalate (commaParts s.toList) = s.toList := by
      rw [commaParts_eq_splitOn]
      exact List.intercalate_splitOn ','
    rw [← String.toList_inj, String.toList_intercalate, List.map_map]
    simpa using hjoined.symm

/-- What is left of parts without the blanks around them and without those that are blank. -/
def stripped (parts : List String) : List String :=
  (parts.map Text.trim).filter fun part => !part.isEmpty

theorem selectors_of_parts {step : Step} {parts : List String} (nonempty : parts ≠ [])
    (whole : ∀ part ∈ parts, ',' ∉ part.toList)
    (written : step.selectorValue = ",".intercalate parts) : step.selectors = stripped parts := by
  have hparts : commaParts step.selectorValue.toList = parts.map String.toList := by
    rw [commaParts_eq_splitOn, written, String.toList_intercalate]
    refine List.splitOn_intercalate ',' ?_ (by simpa using nonempty)
    simpa using whole
  rw [selectors, hparts, stripped]
  clear nonempty whole written hparts
  induction parts with
  | nil => rfl
  | cons part parts ih =>
      rw [List.map_cons, List.filterMap_cons, ih, List.map_cons, List.filter_cons]
      by_cases blank : Text.trimBy Text.isBlank part.toList = [] <;> simp [Text.trim, blank]

/-- The text of a step is one selector as it stands: without commas and without blanks around it. -/
def IsOneSelector (step : Step) : Prop :=
  ',' ∉ step.selectorValue.toList ∧ Text.trim step.selectorValue = step.selectorValue

theorem selectors_eq_self_iff {step : Step} (some : step.selectors ≠ []) :
    step.selectors = [step.selectorValue] ↔ step.IsOneSelector := by
  have single (noComma : ',' ∉ step.selectorValue.toList) :
      step.selectors = stripped [step.selectorValue] :=
    selectors_of_parts (List.cons_ne_nil _ _) (List.forall_mem_singleton.mpr noComma)
      String.intercalate_singleton.symm
  constructor
  · intro own
    obtain ⟨parts, nonempty, whole, written⟩ := exists_parts step.selectorValue
    have among : step.selectorValue ∈ stripped parts := by
      rw [← selectors_of_parts nonempty whole written, own]
      exact List.mem_singleton_self _
    obtain ⟨part, member, hpart⟩ := List.mem_map.mp (List.mem_filter.mp among).1
    have noComma : ',' ∉ step.selectorValue.toList := by
      rw [← hpart, Text.trim, String.toList_ofList]
      exact fun comma => whole part member (Text.subset_trimBy _ _ comma)
    have kept : step.selectorValue ∈ stripped [step.selectorValue] := by
      rw [← single noComma, own]
      exact List.mem_singleton_self _
    exact ⟨noComma, (List.mem_singleton.mp (List.mem_filter.mp kept).1).symm⟩
  · rintro ⟨noComma, trimmed⟩
    rw [single noComma] at some ⊢
    simp only [stripped, List.map_cons, List.map_nil, trimmed, List.filter_cons, List.filter_nil]
      at some ⊢
    split
    next => rfl
    next blank => exact absurd (if_neg blank) some

end Step

end BrowserSteps
