import BrowserSteps.Proofs.Text.Lines
import BrowserSteps.Result.Log

/-!
The lines of a log that grows. A new entry leaves the lines that are there as they are, whatever
line breaks the entries hold.
-/

namespace BrowserSteps.Log

/-- What separates the lines of a log from those of its next entry: an empty line if the log ends
with a line break that does not pair up with the one between entries, and otherwise nothing. -/
def gap (log : Log) : List String :=
  if log.entries = [] then [] else (Text.gap log.text.toList).map String.ofList

theorem lines_append (log : Log) (entry : String) :
    (log.append entry).lines = log.lines ++ log.gap ++ Text.splitLines entry := by
  by_cases h : log.entries = []
  · simp [lines, gap, text, append, h, Text.splitLines, Text.lines]
  · have htext : (log.append entry).text.toList = log.text.toList ++ '\n' :: entry.toList := by
      rw [text, entries_append, String.intercalate_append_of_ne_nil h (List.cons_ne_nil _ _)]
      simp [text]
    simp only [lines, Text.splitLines, htext, Text.lines_append_lineFeed, gap, h, if_false,
      List.map_append]

theorem lines_prefix_append (log : Log) (entry : String) :
    log.lines <+: (log.append entry).lines := by
  rw [lines_append, List.append_assoc]
  exact List.prefix_append _ _

/-- The lines of a log stay when entries are added. -/
theorem lines_mono {log later : Log} (h : log.entries <+: later.entries) :
    log.lines <+: later.lines := by
  obtain ⟨more, hmore⟩ := h
  induction more generalizing log with
  | nil =>
      rw [List.append_nil] at hmore
      obtain rfl : log = later := by cases log; cases later; exact congrArg Log.mk hmore
      exact List.prefix_rfl
  | cons entry rest ih =>
      have hrest : (log.append entry).entries ++ rest = later.entries := by
        rw [entries_append, List.append_assoc, ← hmore]
        rfl
      exact (lines_prefix_append log entry).trans (ih hrest)

/-- An entry that is not empty has a line. -/
theorem lines_lt_of_append {earlier log later : Log} {entry : String} (h : entry ≠ "")
    (before : earlier.entries <+: log.entries)
    (after : (log.append entry).entries <+: later.entries) :
    earlier.lines.length < later.lines.length := by
  have hentry : Text.splitLines entry ≠ [] := by
    simp only [Text.splitLines, ne_eq, List.map_eq_nil_iff]
    exact Text.lines_ne_nil (by simpa using h)
  have hpositive := List.length_pos_iff.mpr hentry
  have hbefore := (lines_mono before).length_le
  have hafter := (lines_mono after).length_le
  rw [lines_append] at hafter
  simp only [List.length_append] at hafter
  omega

/-- Every entry that is not empty has at least one line. -/
theorem lines_length_of_entries {log later : Log} {told : List String}
    (entries : later.entries = log.entries ++ told) (h : ∀ entry ∈ told, entry ≠ "") :
    log.lines.length + told.length ≤ later.lines.length := by
  induction told generalizing log with
  | nil => exact (lines_mono (entries ▸ List.prefix_append _ _)).length_le
  | cons entry rest ih =>
      obtain ⟨hentry, hrest⟩ := List.forall_mem_cons.mp h
      have hfirst : log.lines.length < (log.append entry).lines.length :=
        lines_lt_of_append hentry List.prefix_rfl List.prefix_rfl
      have hentries : later.entries = (log.append entry).entries ++ rest := by simpa using entries
      have hothers := ih hentries hrest
      rw [List.length_cons]
      omega

theorem entry_ne_empty (now : DateTime) (stepName message : String) :
    entry now stepName message ≠ "" := by
  intro impossible
  have hlength := congrArg String.length impossible
  simp [entry, String.length_append] at hlength

end BrowserSteps.Log
