import BrowserSteps.Proofs.Run.Phases
import Mathlib.Data.List.Forall2

/-!
Every execution of a step is recorded by one outcome, in the order of the history: one that came
to its end by an outcome made from it, one that the deadline cut by a failed outcome that is made
when the run is closed. Each execution is followed by the one that its end leads to.
-/

namespace BrowserSteps.Run

variable {σ : Type} {env : Env σ} {capturing : Bool} {steps : List Step}

/-- The outcome that belongs to an execution. -/
inductive Recorded (env : Env σ) (capturing : Bool) (e : Execution σ) (o : Outcome) : Prop where
  | ended (v : Verdict) (world : World σ) (unsaved : Bool) (s : State σ)
      (executed : (e.executed env capturing).1 = if v.stop then .stop else .goOn v.jump)
      (answered : e.activityEnd env = (.verdict v, world))
      (captured : markCapture env capturing e.step (e.measured env v world).2 =
        (.done unsaved, s))
      (outcome_eq : o = endedOutcome env e.step e.start.result.log.lines.length
        (e.start.now env) (v.failed || (e.measured env v world).1 || unsaved) s)
  | cut (t : State σ) (executed : e.executed env capturing = (.cut, t))
      (outcome_eq : o = cutOutcome env e.step t)

theorem forall₂_getElem? {α β : Type} {R : α → β → Prop} {as : List α} {bs : List β}
    (h : List.Forall₂ R as bs) {k : Nat} {b : β} (at_k : bs[k]? = some b) :
    ∃ a, as[k]? = some a ∧ R a b := by
  induction h generalizing k with
  | nil => cases at_k
  | cons hR _ ih =>
      cases k with
      | zero =>
          cases at_k
          exact ⟨_, rfl, hR⟩
      | succ k => exact ih at_k

theorem Finished.outcomes {step : Step} {stop : Bool} {s : State σ} {answer : Bool × State σ}
    (h : Finished env step stop s answer) :
    answer.2.result.outcomes = s.result.outcomes := by
  cases h <;> rfl

theorem Captured.outcomes {step : Step} {s : State σ} {answer : Part Bool × State σ}
    (h : Captured env capturing step s answer) :
    answer.2.result.outcomes = s.result.outcomes := by
  cases h <;> rfl

theorem outcomes_noted (e : Execution σ) (entries : List String) (world : World σ) :
    (e.noted env entries world).result.outcomes = e.start.result.outcomes := by
  simp only [Execution.noted, noteAll_eq, markStart_eq]

/-- Up to its screenshot a step has no outcome. -/
theorem outcomes_captured {e : Execution σ} {v : Verdict} {world : World σ} {part : Part Bool}
    {s : State σ}
    (captured : markCapture env capturing e.step (e.measured env v world).2 = (part, s)) :
    s.result.outcomes = e.start.result.outcomes :=
  calc
    s.result.outcomes = (e.measured env v world).2.result.outcomes :=
      (captured_of_eq captured).outcomes
    _ = (e.noted env v.entries world).result.outcomes := (e.finished env v world).outcomes
    _ = e.start.result.outcomes := outcomes_noted e v.entries world

/-- An execution that is not cut is recorded as it ends. -/
theorem recorded_of_executed {e : Execution σ} {ending : StepEnd} {t : State σ}
    (executed : e.executed env capturing = (ending, t)) (uncut : ending ≠ .cut)
    (complete : ending ≠ .unfinished) :
    ∃ o, t.result.outcomes = e.start.result.outcomes ++ [o] ∧ Recorded env capturing e o := by
  cases Executes.of_executed executed with
  | ended v world unsaved s answered captured ending_eq state_eq =>
      refine ⟨_, ?_, .ended v world unsaved s (by rw [executed, ending_eq]) answered captured rfl⟩
      rw [state_eq, ← outcomes_captured captured]
      rfl
  | cutInCapture _ _ _ _ ending_eq => exact absurd ending_eq uncut
  | cutInActivity _ _ _ ending_eq => exact absurd ending_eq uncut
  | unfinished _ _ ending_eq => exact absurd ending_eq complete

/-- An execution that is cut is not recorded as it ends. -/
theorem Executes.outcomes_of_cut {e : Execution σ} {t : State σ}
    (h : Executes env capturing e .cut t) : t.result.outcomes = e.start.result.outcomes := by
  cases h with
  | ended v _ _ _ _ _ ending_eq => exact absurd rfl (ending_of_verdict v ending_eq).1
  | cutInCapture v world answered captured => exact outcomes_captured captured
  | cutInActivity entries world _ _ state_eq => rw [state_eq, outcomes_noted]
  | unfinished _ _ ending_eq => cases ending_eq

/-- The outcomes of a closed run are those of its executions. -/
theorem Course.recorded {s u : State σ} {es : List (Execution σ)} {reason : End}
    (h : Course env capturing steps s es reason u) :
    ∃ os, (closing env steps reason u).result.outcomes = s.result.outcomes ++ os ∧
      List.Forall₂ (Recorded env capturing) es os := by
  induction h with
  | finished | bounded | cancelled => exact ⟨[], (List.append_nil _).symm, .nil⟩
  | next start _ _ executed _ ih =>
      subst start
      obtain ⟨o, houtcomes, hrecorded⟩ := recorded_of_executed executed (by simp) (by simp)
      obtain ⟨os, hrest, hall⟩ := ih
      refine ⟨o :: os, ?_, .cons hrecorded hall⟩
      rw [hrest]
      simp only [advance, houtcomes, List.append_assoc, List.singleton_append]
  | stopped start _ _ executed =>
      subst start
      obtain ⟨o, houtcomes, hrecorded⟩ := recorded_of_executed executed (by simp) (by simp)
      exact ⟨[o], houtcomes, .cons hrecorded .nil⟩
  | @cut s t e start here _ executed =>
      subst start
      have executes := Executes.of_executed executed
      refine ⟨[cutOutcome env e.step t], ?_, .cons (.cut t executed rfl) .nil⟩
      have hnext : steps[t.next]? = some e.step := executes.follows.next ▸ here
      rw [← executes.outcomes_of_cut]
      simp [closing, recordCut, hnext, State.record, State.note, RunResult.record, RunResult.note]
  | waiting start _ executed =>
      subst start
      have hsame := (Executes.of_executed executed).result_of_unfinished
      exact ⟨[], by rw [List.append_nil, ← hsame]; rfl, .nil⟩

/-- The outcomes of a run are those of its history. -/
theorem run_recorded (env : Env σ) (steps : List Step) (order : Order) (bound : Nat)
    (world : World σ) (files : FileTree) :
    List.Forall₂ (Recorded env order.capturing) (history env steps order bound world files)
      (run env steps order bound world files).2.result.outcomes := by
  obtain ⟨u, hcourse, hended⟩ := run_course env steps order bound world files
  obtain ⟨os, houtcomes, hrecorded⟩ := hcourse.recorded
  rw [(opening_fresh env order world files).outcomes, List.nil_append] at houtcomes
  rw [hended, houtcomes]
  exact hrecorded

end BrowserSteps.Run
