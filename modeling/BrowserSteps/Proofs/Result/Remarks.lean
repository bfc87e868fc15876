import BrowserSteps.Proofs.Calendar
import BrowserSteps.Proofs.Json.Token
import BrowserSteps.Proofs.Result.Log
import BrowserSteps.Result.Basic

/-!
Remarks and the lines they become. Every remark is an entry of the log, but the log is kept as one
text: an entry is a line of it exactly if neither the name of its step nor what it says has a line
break, and one that has can pass for several.
-/

namespace BrowserSteps

/-- What is told to the log: when, of which step, and what. -/
structure Remark where
  time : DateTime
  step : String
  message : String

namespace Remark

/-- The entry that a remark becomes. -/
def entry (remark : Remark) : String := Log.entry remark.time remark.step remark.message

/-- Neither the name of the step nor the message has a line break. -/
def IsOneLine (remark : Remark) : Prop :=
  Text.Unbroken remark.step.toList ∧ Text.Unbroken remark.message.toList

/-- A remark that says after a line feed what another remark would say. -/
def forging (remark other : Remark) : Remark :=
  { remark with message := remark.message ++ "\n" ++ other.entry }

theorem entry_forging (remark other : Remark) :
    (remark.forging other).entry = remark.entry ++ "\n" ++ other.entry := by
  simp only [forging, entry, Log.entry, String.append_assoc]

end Remark

/-- Adds remarks to the log, one after the other. -/
def RunResult.tell (r : RunResult) (remarks : List Remark) : RunResult :=
  remarks.foldl (fun r remark => r.note remark.entry) r

theorem RunResult.entries_tell (r : RunResult) (remarks : List Remark) :
    (r.tell remarks).log.entries = r.log.entries ++ remarks.map Remark.entry := by
  induction remarks generalizing r with
  | nil => exact (List.append_nil _).symm
  | cons remark rest ih =>
      have hrest : (r.tell (remark :: rest)).log.entries = _ := ih (r.note remark.entry)
      rw [hrest, List.map_cons, ← List.singleton_append, ← List.append_assoc]
      rfl

namespace Text

theorem isLineBreak_of_isDigit {c : Char} (digit : c.isDigit = true) : isLineBreak c = false := by
  have hbounds := bounds_of_isDigit digit
  simp only [isLineBreak, Bool.or_eq_false_iff, Bool.and_eq_false_iff, decide_eq_false_iff_not,
    beq_eq_false_iff_ne]
  omega

theorem unbroken_toDigits (n : Nat) : Unbroken (Nat.toDigits 10 n) :=
  fun c member => isLineBreak_of_isDigit (Json.isDigit_of_mem_toDigits c member)

theorem unbroken_padded (width n : Nat) : Unbroken (DateTime.padded width n).toList :=
  fun c member => isLineBreak_of_isDigit (DateTime.isDigit_of_mem_padded c member)

theorem unbroken_stamp (time : DateTime) : Unbroken time.stamp.toList := by
  simp +decide [DateTime.stamp, DateTime.dayText, DateTime.clockText, unbroken_toDigits,
    unbroken_padded]

end Text

namespace Log

/-- An entry has a line break exactly if what was told has one. -/
theorem unbroken_entry (remark : Remark) :
    Text.Unbroken remark.entry.toList ↔ remark.IsOneLine := by
  simp +decide [Remark.entry, entry, Remark.IsOneLine, Text.unbroken_stamp]

/-- The lines of a log are its entries exactly if these have no line breaks. -/
theorem lines_eq_entries_iff {log : Log} (nonempty : ∀ entry ∈ log.entries, entry ≠ "") :
    log.lines = log.entries ↔ ∀ entry ∈ log.entries, Text.Unbroken entry.toList := by
  constructor
  · intro same entry member
    rw [← same, lines, Text.splitLines] at member
    obtain ⟨line, hline, rfl⟩ := List.mem_map.mp member
    rw [String.toList_ofList]
    exact Text.unbroken_of_mem_lines hline
  · obtain ⟨entries⟩ := log
    intro unbroken
    simp only [lines, text] at nonempty unbroken ⊢
    induction entries with
    | nil => rfl
    | cons entry rest ih =>
        obtain ⟨hentry, hothers⟩ := List.forall_mem_cons.mp unbroken
        obtain ⟨hne, hnonempty⟩ := List.forall_mem_cons.mp nonempty
        have hchars : entry.toList ≠ [] := by simpa using hne
        have hfirst := Text.lines_of_unbroken hentry hchars
        cases rest with
        | nil => simp [Text.splitLines, hfirst]
        | cons next rest =>
            have hrest := ih hnonempty hothers
            have htext : ("\n".intercalate (entry :: next :: rest)).toList =
                entry.toList ++ '\n' :: ("\n".intercalate (next :: rest)).toList := by
              simp [String.intercalate_cons_cons]
            rw [Text.splitLines, htext, Text.lines_append_lineFeed, hfirst,
              Text.gap_of_unbroken hentry hchars, List.append_nil, List.singleton_append,
              List.map_cons, String.ofList_toList]
            exact congrArg (entry :: ·) hrest

/-- Whatever else is told, a remark that says what another would say leaves the text that the two
would leave. -/
theorem text_tell_forging (before after : List Remark) (remark other : Remark) :
    (({} : RunResult).tell (before ++ remark.forging other :: after)).log.text =
      (({} : RunResult).tell (before ++ remark :: other :: after)).log.text := by
  have hforged : "\n".intercalate ((remark.forging other :: after).map Remark.entry) =
      "\n".intercalate ((remark :: other :: after).map Remark.entry) := by
    cases after with
    | nil => simp [Remark.entry_forging, String.intercalate_cons_cons]
    | cons next rest =>
        simp [Remark.entry_forging, String.intercalate_cons_cons, String.append_assoc]
  simp only [text, RunResult.entries_tell, List.nil_append, List.map_append]
  cases before with
  | nil => exact hforged
  | cons first others =>
      rw [String.intercalate_append_of_ne_nil (by simp) (by simp), hforged,
        String.intercalate_append_of_ne_nil (by simp) (by simp)]

/-- However many remarks there are and whatever they say, the log has a line for each of them at least,
and its lines are their entries, one for each and in order, exactly if no step name and no message has
a line break. Where one has, the lines do not tell who said what: a message that goes on after a line
feed with the entry of another step leaves the lines that the two would leave. -/
theorem lines_of_remarks (remarks : List Remark) :
    let log := (({} : RunResult).tell remarks).log
    remarks.length ≤ log.lines.length ∧
    (log.lines = remarks.map Remark.entry ↔ ∀ remark ∈ remarks, remark.IsOneLine) ∧
    ∀ (remark other : Remark) (after : List Remark),
      (({} : RunResult).tell (remarks ++ remark.forging other :: after)).log.lines =
        (({} : RunResult).tell (remarks ++ remark :: other :: after)).log.lines := by
  intro log
  have hentries : log.entries = remarks.map Remark.entry := by
    simp only [log, RunResult.entries_tell]
    rfl
  have nonempty : ∀ entry ∈ log.entries, entry ≠ "" := by
    intro entry member
    rw [hentries] at member
    obtain ⟨remark, -, rfl⟩ := List.mem_map.mp member
    exact entry_ne_empty _ _ _
  refine ⟨?_, ?_, ?_⟩
  · have hlength : ({} : Log).lines.length + log.entries.length ≤ log.lines.length :=
      lines_length_of_entries rfl nonempty
    rw [hentries, List.length_map] at hlength
    exact Nat.le_trans (Nat.le_add_left _ _) hlength
  · rw [← hentries, lines_eq_entries_iff nonempty, hentries, List.forall_mem_map]
    exact forall₂_congr fun remark _ => unbroken_entry remark
  · intro remark other after
    exact congrArg Text.splitLines (text_tell_forging remarks after remark other)

/-- One remark that leaves two lines, the second of which no call has written. -/
theorem line_forged :
    let remark : Remark := ⟨⟨0⟩, "a", "x\n1-01-01 00:00:00: Step [b] y"⟩
    let log := (({} : RunResult).tell [remark]).log
    log.lines = ["1-01-01 00:00:00: Step [a] x", "1-01-01 00:00:00: Step [b] y"] ∧
      log.lines ≠ [remark.entry] := by
  decide +kernel

end Log

end BrowserSteps
