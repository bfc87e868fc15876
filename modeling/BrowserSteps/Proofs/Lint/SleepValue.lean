import BrowserSteps.Proofs.Lint.Reports
import BrowserSteps.Proofs.Text.Numeral
import BrowserSteps.Proofs.Wait.Seconds
import BrowserSteps.Run.Handler

/-!
The values of sleeping steps, as the checks of a step list and as a run take them. The checks ask for a
text of digits of any kind; a run reads a whole number. A sign or an underscore makes the checks report
a value that a run reads, and digits that are not decimal, or too many digits, make a run read nothing
where the checks report nothing.
-/

namespace BrowserSteps

namespace TimeScale

open Binary64

/-- A power of two below a thousandth. -/
theorem unpack_belowThousandth : (0.0009765625 : Float).toModel.unpack =
    .finite .positive (2 ^ 52) (-62) (Nat.two_pow_pos 52) := rfl

/-- Any number of milliseconds takes time. -/
theorem secondsOfMillis_pos {n : Nat} (positive : 0 < n) : 0.0 < secondsOfMillis n := by
  have hsign : decide ((n : Int) < 0) = false := decide_eq_false (by omega)
  have hseconds : secondsOfMillis n = Text.floatOfDecimal false n (-3) := by
    rw [secondsOfMillis, hsign, Int.natAbs_natCast]
  rw [hseconds]
  rcases floatOfDecimal_cases exact_thousand n with ⟨zero, -⟩ | infinite | fraction
  · omega
  · exact positive_iff.mpr (.inl infinite)
  · have one : (1 : ℚ) ≤ n := by exact_mod_cast positive
    apply fraction.positive unpack_belowThousandth
    calc value (2 ^ 52) (-62) * 10 ^ 3 ≤ 1 := by norm_num [value]
      _ ≤ (n : ℚ) := one

end TimeScale

namespace Handler

open Text

theorem parseMillis_of_numeral {s : String} {n : Int} (h : Numeral (trim s).toList n) :
    parseMillis s = n.toNat := by
  rw [parseMillis, readInteger_trim_eq_ok_iff.mpr h]

theorem parseMillis_of_unread {s : String} (unread : ¬ ∃ n, Numeral (trim s).toList n) :
    parseMillis s = 0 := by
  unfold parseMillis
  split
  next n read => exact absurd ⟨n, readInteger_trim_eq_ok_iff.mp read⟩ unread
  next => rfl

/-- A step sleeps for no time if and only if its value counts as no milliseconds. -/
theorem sleep_eq_rest_zero_iff {σ : Type} {step : Step} :
    (sleep step : Activity σ) = .rest 0 .passed (.failure step cancelled) "sleep interrupted" ↔
      parseMillis step.actionValue = 0 := by
  constructor
  · intro h
    by_contra some
    have hpause := TimeScale.pauseOfSeconds_pos
      (TimeScale.secondsOfMillis_pos (Nat.pos_of_ne_zero some))
    unfold sleep at h
    dsimp only at h
    split at h
    · cases h
    · injection h with hzero
      omega
  · intro none
    unfold sleep
    rw [none]
    rfl

end Handler

namespace Lint

open Text

variable {steps : List Step} {index : Nat} {step : Step}

theorem isDigitText_eq_true {s : String} : isDigitText s = true ↔ IsDigits s.toList := by
  rw [isDigitText, Bool.and_eq_true, List.all_eq_true, Bool.not_eq_true', ← Bool.not_eq_true,
    String.isEmpty_iff, ← String.toList_eq_nil_iff]
  rfl

/-- What the checks of a list report of a sleeping step, what a run reads of its value, and the two ways in
which they differ. A value that is reported and read has a sign or an underscore, and the step sleeps as
long as the number says; one that is neither reported nor read has digits only, and does not sleep. All
of that holds of the lists whose checks come to their end; of the others nothing is reported. -/
theorem sleep_report_against_run (here : steps[index]? = some step) (sleeps : step.action = .sleep) :
    let text := (trim step.actionValue).toList
    let reported := Reports steps "sleep-not-numeric" index
    let isRead := ∃ n, readInteger (trim step.actionValue) = .ok n
    let millis := Handler.parseMillis step.actionValue
    (Complete steps ↔ ∀ other ∈ steps, ¬ PrintsLong steps.length other) ∧
      (reported ↔ ∃ found, issues steps = .ok found ∧
        ⟨index, step.name, .sleepNotNumeric step.actionValue,
          "sleep の actionValue が数値ではありません（0ms として扱われます）: " ++
            quoted step.actionValue⟩ ∈ found) ∧
      (reported ↔ Complete steps ∧ ¬ IsDigits text) ∧
      (reported ∧ isRead ↔ Complete steps ∧ ∃ n, Numeral text n ∧ Marked text) ∧
      (Complete steps → (¬ reported ∧ ¬ isRead ↔ IsDigits text ∧
        ((∃ c ∈ text, isDecimal c = false) ∨ digitLimit < text.length))) ∧
      (∀ n, Numeral text n → millis = n.toNat) ∧ (¬ isRead → millis = 0) ∧
      ∀ σ : Type, (Handler.sleep step : Activity σ) =
        .rest 0 .passed (.failure step Handler.cancelled) "sleep interrupted" ↔ millis = 0 := by
  intro text reported isRead millis
  have hreported : reported ↔ Complete steps ∧ ¬ IsDigits text := by
    rw [← isDigitText_eq_true, Bool.not_eq_true]
    exact (reports_sleepNotNumeric_iff here).trans
      (and_congr_right fun _ => and_iff_right sleeps)
  have hread : isRead ↔ ∃ n, Numeral text n :=
    exists_congr fun n => readInteger_trim_eq_ok_iff
  refine ⟨complete_iff, ?_, hreported, ?_, ?_, fun n => Handler.parseMillis_of_numeral, ?_,
    fun σ => Handler.sleep_eq_rest_zero_iff⟩
  · rw [hreported, ← isDigitText_eq_true, Bool.not_eq_true, Complete, ← exists_and_right]
    refine exists_congr fun found => and_congr_right fun complete => ?_
    rw [mem_issues_iff complete here]
    simp [Finding.Describes, Finding.message, sleeps]
  · rw [hreported, hread, and_assoc]
    refine and_congr_right fun _ => ?_
    rw [← exists_and_left]
    apply exists_congr
    intro n
    rw [and_comm]
    exact and_congr_right fun numeral => numeral.marked_iff.symm
  · intro complete
    rw [hreported, and_iff_right complete, not_not]
    apply and_congr_right
    intro digits
    rw [hread, exists_numeral_iff digits, not_and_or, not_forall]
    simp only [Classical.not_imp, Bool.not_eq_true, Nat.not_le]
  · intro unread
    exact Handler.parseMillis_of_unread fun read => unread (hread.mpr read)

/-- A number with an underscore is reported, and slept as long as it says. -/
theorem sleep_report_against_run_of_underscore :
    let step : Step := { action := .sleep, actionValue := " 1_000 " }
    [step][0]? = some step ∧ step.action = .sleep ∧ Reports [step] "sleep-not-numeric" 0 ∧
      Handler.parseMillis step.actionValue = 1000 ∧
      (Handler.sleep step : Activity Unit) ≠
        .rest 0 .passed (.failure step Handler.cancelled) "sleep interrupted" := by
  intro step
  have here : [step][0]? = some step := rfl
  have sleeps : step.action = .sleep := rfl
  obtain ⟨complete_iff, -, -, bothways, -, hmillis, -, unslept⟩ :=
    sleep_report_against_run here sleeps
  have complete : Complete [step] := complete_iff.mpr (by simp [PrintsLong, step])
  have numeral : Numeral (trim step.actionValue).toList 1000 :=
    readInteger_trim_eq_ok_iff.mp (by decide +kernel)
  have marked : Marked (trim step.actionValue).toList := .inr (.inr (by decide +kernel))
  have millis : Handler.parseMillis step.actionValue = 1000 := hmillis 1000 numeral
  refine ⟨here, sleeps, (bothways.mpr ⟨complete, 1000, numeral, marked⟩).1, millis, ?_⟩
  rw [ne_eq, unslept Unit, millis]
  decide

/-- The checks say of `+5` that it counts as nothing, and the step sleeps for five milliseconds; they say
nothing of `²`, and the step does not sleep because its value is not read. -/
theorem sleep_report_not_exact :
    let signed : Step := { action := .sleep, actionValue := "+5" }
    let raised : Step := { action := .sleep, actionValue := "²" }
    (issues [signed] = .ok [⟨0, signed.name, .sleepNotNumeric "+5",
          "sleep の actionValue が数値ではありません（0ms として扱われます）: '+5'"⟩] ∧
        readInteger (trim signed.actionValue) = .ok 5 ∧
        (Handler.sleep signed : Activity Unit) =
          .rest 5000 .passed (.failure signed Handler.cancelled) "sleep interrupted") ∧
      issues [raised] = .ok [] ∧ readInteger (trim raised.actionValue) = .error .malformed ∧
        (Handler.sleep raised : Activity Unit) =
          .rest 0 .passed (.failure raised Handler.cancelled) "sleep interrupted" := by
  intro signed raised
  have reported : issues [signed] = .ok [⟨0, signed.name, .sleepNotNumeric "+5",
      "sleep の actionValue が数値ではありません（0ms として扱われます）: '+5'"⟩] := by decide +kernel
  have read : readInteger (trim signed.actionValue) = .ok 5 := by decide +kernel
  have silent : issues [raised] = .ok [] := by decide +kernel
  have unread : readInteger (trim raised.actionValue) = .error .malformed := by decide +kernel
  have slept : (Handler.sleep signed : Activity Unit) =
      .rest 5000 .passed (.failure signed Handler.cancelled) "sleep interrupted" := by
    have millis : Handler.parseMillis signed.actionValue = 5 := by decide +kernel
    rw [Handler.sleep, millis]
    rfl
  refine ⟨⟨reported, read, slept⟩, silent, unread, Handler.sleep_eq_rest_zero_iff.mpr ?_⟩
  rw [Handler.parseMillis, unread]

end Lint

end BrowserSteps
