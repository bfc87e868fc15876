import BrowserSteps.Text.Lines

/-!
Lines of a text that goes on after a line feed. The lines that were there stay; between them and
the lines of what follows there is an empty line exactly if the line feed found nothing to end. A
text without a line break is its own line.
-/

namespace BrowserSteps.Text

/-- The lines that a line feed after a text makes of its own: an empty one at the very beginning or
after a line break, unless the two are a pair. -/
def gap (text : List Char) : List (List Char) :=
  match text.getLast? with
  | none => [[]]
  | some c => if isLineBreak c ∧ c ≠ '\r' then [[]] else []

theorem lines_lineFeed (text : List Char) : lines ('\n' :: text) = [] :: lines text := by
  rw [lines.eq_3 _ _ (by simp), if_pos (by decide)]

theorem gap_cons_of_ne_nil (c : Char) {text : List Char} (h : text ≠ []) :
    gap (c :: text) = gap text := by
  obtain ⟨last, hlast⟩ := Option.ne_none_iff_exists'.mp (mt List.getLast?_eq_none_iff.mp h)
  simp only [gap, List.getLast?_cons, hlast, Option.getD_some]

theorem prependChar_append {c : Char} {first : List (List Char)} (h : first ≠ [])
    (rest : List (List Char)) : prependChar c (first ++ rest) = prependChar c first ++ rest := by
  cases first with
  | nil => exact absurd rfl h
  | cons line others => rfl

theorem lines_ne_nil {text : List Char} (h : text ≠ []) : lines text ≠ [] := by
  induction text using lines.induct with
  | case1 => exact absurd rfl h
  | case2 rest ih => simp [lines]
  | case3 c rest unpaired isBreak ih =>
      rw [lines.eq_3 c rest unpaired, if_pos isBreak]
      exact List.cons_ne_nil _ _
  | case4 c rest unpaired noBreak ih =>
      rw [lines.eq_3 c rest unpaired, if_neg noBreak]
      cases lines rest <;> exact List.cons_ne_nil _ _

/-- A character that is no half of a pair stays so when text is added to more than itself. -/
theorem unpaired_append {c d : Char} {tail : List Char}
    (unpaired : ∀ rest, c = '\r' → d :: tail = '\n' :: rest → False) (more : List Char) :
    ∀ rest, c = '\r' → d :: tail ++ more = '\n' :: rest → False := by
  intro rest same cons
  simp only [List.cons_append, List.cons.injEq] at cons
  exact unpaired tail same (by rw [cons.1])

/-- A line feed ends the lines before it and begins those after it. -/
theorem lines_append_lineFeed (before after : List Char) :
    lines (before ++ '\n' :: after) = lines before ++ gap before ++ lines after := by
  induction before using lines.induct with
  | case1 => simp [lines_lineFeed, lines, gap]
  | case2 rest ih =>
      have hgap : gap ('\r' :: '\n' :: rest) = gap rest := by
        cases rest with
        | nil => decide
        | cons d tail => rw [gap_cons_of_ne_nil _ (by simp), gap_cons_of_ne_nil _ (by simp)]
      simp only [List.cons_append, lines, ih, hgap]
  | case3 c rest unpaired isBreak ih =>
      cases rest with
      | nil =>
          by_cases hc : c = '\r'
          · subst hc
            simp [lines, gap, isBreak]
          · rw [List.singleton_append, lines.eq_3 _ _ (fun _ same => absurd same hc),
              lines.eq_3 _ _ unpaired, lines_lineFeed]
            simp [isBreak, lines, gap, hc]
      | cons d tail =>
          rw [List.cons_append, lines.eq_3 _ _ (unpaired_append unpaired _), lines.eq_3 _ _ unpaired,
            ih, gap_cons_of_ne_nil c (List.cons_ne_nil d tail)]
          simp only [isBreak, if_true, List.cons_append]
  | case4 c rest unpaired noBreak ih =>
      cases rest with
      | nil =>
          have hc : c ≠ '\r' := fun same => noBreak (by rw [same]; decide)
          rw [List.singleton_append, lines.eq_3 _ _ (fun _ same => absurd same hc),
            lines.eq_3 _ _ unpaired, lines_lineFeed]
          simp [noBreak, lines, gap, prependChar]
      | cons d tail =>
          have hlines := lines_ne_nil (List.cons_ne_nil d tail)
          rw [List.cons_append, lines.eq_3 _ _ (unpaired_append unpaired _), lines.eq_3 _ _ unpaired,
            ih, gap_cons_of_ne_nil c (List.cons_ne_nil d tail), if_neg noBreak, if_neg noBreak,
            List.append_assoc, prependChar_append hlines, List.append_assoc]

/-- A text without a line break. -/
def Unbroken (text : List Char) : Prop := ∀ c ∈ text, isLineBreak c = false

@[simp] theorem unbroken_cons {c : Char} {text : List Char} :
    Unbroken (c :: text) ↔ isLineBreak c = false ∧ Unbroken text :=
  List.forall_mem_cons

@[simp] theorem unbroken_append {text more : List Char} :
    Unbroken (text ++ more) ↔ Unbroken text ∧ Unbroken more :=
  List.forall_mem_append

/-- No line has a line break in it. -/
theorem unbroken_of_mem_lines {text line : List Char} (member : line ∈ lines text) :
    Unbroken line := by
  induction text using lines.induct generalizing line with
  | case1 => cases member
  | case2 rest ih =>
      rcases List.mem_cons.mp member with rfl | later
      · exact List.forall_mem_nil _
      · exact ih later
  | case3 c rest unpaired isBreak ih =>
      rw [lines.eq_3 c rest unpaired, if_pos isBreak] at member
      rcases List.mem_cons.mp member with rfl | later
      · exact List.forall_mem_nil _
      · exact ih later
  | case4 c rest unpaired noBreak ih =>
      rw [lines.eq_3 c rest unpaired, if_neg noBreak] at member
      have hc : isLineBreak c = false := Bool.eq_false_iff.mpr noBreak
      cases hlines : lines rest with
      | nil =>
          rw [hlines] at member
          obtain rfl := List.mem_singleton.mp member
          exact unbroken_cons.mpr ⟨hc, List.forall_mem_nil _⟩
      | cons first others =>
          rw [hlines] at ih member
          rcases List.mem_cons.mp member with rfl | later
          · exact unbroken_cons.mpr ⟨hc, ih List.mem_cons_self⟩
          · exact ih (List.mem_cons_of_mem _ later)

theorem lines_of_unbroken {text : List Char} (unbroken : Unbroken text) (h : text ≠ []) :
    lines text = [text] := by
  induction text using lines.induct with
  | case1 => exact absurd rfl h
  | case2 rest ih => exact absurd (unbroken '\r' List.mem_cons_self) (by decide)
  | case3 c rest unpaired isBreak ih =>
      exact absurd isBreak (by simp [unbroken c List.mem_cons_self])
  | case4 c rest unpaired noBreak ih =>
      rw [lines.eq_3 c rest unpaired, if_neg noBreak]
      cases rest with
      | nil => rfl
      | cons d tail =>
          rw [ih (unbroken_cons.mp unbroken).2 (List.cons_ne_nil d tail)]
          rfl

theorem gap_of_unbroken {text : List Char} (unbroken : Unbroken text) (h : text ≠ []) :
    gap text = [] := by
  have hlast := unbroken _ (List.getLast_mem h)
  simp [gap, List.getLast?_eq_some_getLast h, hlast]

end BrowserSteps.Text
