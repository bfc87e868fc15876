import BrowserSteps.Proofs.Run.Completion
import BrowserSteps.Proofs.Run.Recording
import BrowserSteps.Proofs.Run.Verdict

/-!
The control flow of a run with all actions. Executions follow one another by one index, except
after a jump whose script answered true, and every execution has its one outcome. A run ends for
one of four reasons, each of which its last state and its last execution bear out.
-/

namespace BrowserSteps.Run

variable {σ τ : Type} {env : Env σ} {capturing : Bool} {steps : List Step}

theorem Recorded.index_eq {e : Execution σ} {o : Outcome} (h : Recorded env capturing e o) :
    o.index = e.index := by
  cases h with
  | ended v world unsaved s _ answered captured outcome_eq =>
      have hnext := (follows_captured answered captured).next
      simp only [outcome_eq, endedOutcome, outcomeOf, hnext, Execution.index]
  | cut t executed outcome_eq =>
      have hnext := (Executes.of_executed executed).follows.next
      simp only [outcome_eq, cutOutcome, outcomeOf, hnext, Execution.index]

theorem Recorded.failed_of_cut {e : Execution σ} {o : Outcome}
    (h : Recorded env capturing e o) (cut : (e.executed env capturing).1 = .cut) :
    o.status = .failed := by
  cases h with
  | ended v world unsaved s executed =>
      exact absurd cut (ending_of_verdict v executed).1
  | cut t executed outcome_eq => rw [outcome_eq, cutOutcome]

/-- An execution that goes on came to a verdict, which says whether to jump. -/
theorem verdict_of_goOn {e : Execution σ} {jump : Option Int} {t : State σ}
    (executed : e.executed env capturing = (.goOn jump, t)) :
    ∃ v world, e.activityEnd env = (.verdict v, world) ∧ v.jump = jump := by
  cases Executes.of_executed executed with
  | ended v world _ _ answered _ ending_eq =>
      cases hstop : v.stop with
      | true => simp [hstop] at ending_eq
      | false =>
          simp only [hstop, Bool.false_eq_true, if_false, StepEnd.goOn.injEq] at ending_eq
          exact ⟨v, world, answered, ending_eq.symm⟩
  | cutInCapture _ _ _ _ ending_eq | cutInActivity _ _ _ ending_eq | unfinished _ _ ending_eq =>
      cases ending_eq

/-- An execution that is cut ends at the deadline. -/
theorem deadline_of_cut {e : Execution σ} {t : State σ}
    (executed : e.executed env capturing = (.cut, t)) :
    t.world.deadline = some t.world.clock := by
  cases Executes.of_executed executed with
  | ended v _ _ _ _ _ ending_eq => exact absurd rfl (ending_of_verdict v ending_eq).1
  | cutInCapture v world answered captured =>
      cases captured_of_eq captured with
      | cut _ _ deadline => exact deadline
  | cutInActivity entries world answered _ state_eq =>
      rw [state_eq, Execution.noted, noteAll_eq, markStart_eq]
      exact (activity env e.step).deadline_of_run env.turns answered
  | unfinished _ _ ending_eq => cases ending_eq

/-- What the executions of a run and the state after it say about the reason for its end. A run
that is unfinished has not ended. -/
def BearsOut (env : Env σ) (capturing : Bool) (steps : List Step) (deadline : Option Nat)
    (es : List (Execution σ)) (s : State σ) : End → Prop
  | .finished => steps.length ≤ s.next
  | .stopped => ∃ e ∈ es.getLast?, (e.executed env capturing).1 = .stop
  | .cancelled => s.world.cancelled = true
  | .cut => (∃ e ∈ es.getLast?, (e.executed env capturing).1 = .cut) ∧
      deadline = some s.world.clock
  | .unfinished => True

/-- What is due, and the result, do not matter for the reason. -/
theorem BearsOut.congr {deadline : Option Nat} {es : List (Execution σ)} {s t : State σ}
    {reason : End} (h : BearsOut env capturing steps deadline es s reason)
    (next : t.next = s.next) (clock : t.world.clock = s.world.clock)
    (cancelled : t.world.cancelled = s.world.cancelled) :
    BearsOut env capturing steps deadline es t reason := by
  cases reason with
  | finished =>
      simp only [BearsOut] at h ⊢
      omega
  | cancelled => exact cancelled.trans h
  | cut => exact ⟨h.1, clock.symm ▸ h.2⟩
  | stopped | unfinished => exact h

theorem Course.bearsOut {s u : State σ} {es : List (Execution σ)} {reason : End}
    (h : Course env capturing steps s es reason u) (timely : s.world.Timely) :
    BearsOut env capturing steps s.world.deadline es u reason := by
  induction h with
  | finished past => exact List.getElem?_eq_none_iff.mp past
  | cancelled here requested => exact requested
  | @next s t u e rest reason jump start here running executed onward ih =>
      subst start
      have hbefore := (Executes.of_executed executed).follows.world timely
      have hrest := ih hbefore.timely
      simp only [advance, hbefore.deadline] at hrest
      cases reason with
      | stopped =>
          obtain ⟨last, hlast, hstop⟩ := hrest
          exact ⟨last, List.mem_getLast?_cons hlast, hstop⟩
      | cut =>
          obtain ⟨⟨last, hlast, hcut⟩, hdeadline⟩ := hrest
          exact ⟨⟨last, List.mem_getLast?_cons hlast, hcut⟩, hdeadline⟩
      | finished | cancelled | unfinished => exact hrest
  | @stopped s t e start here running executed => exact ⟨e, rfl, by rw [executed]⟩
  | @cut s t e start here running executed =>
      subst start
      have hbefore := (Executes.of_executed executed).follows.world timely
      refine ⟨⟨e, rfl, by rw [executed]⟩, ?_⟩
      rw [← hbefore.deadline, deadline_of_cut executed]
  | waiting | bounded => trivial

theorem run_bearsOut (env : Env σ) (steps : List Step) (order : Order) (bound : Nat)
    (world : World σ) (files : FileTree) :
    BearsOut env order.capturing steps (opening env order world files).world.deadline
      (history env steps order bound world files)
      (run env steps order bound world files).2 (run env steps order bound world files).1 := by
  obtain ⟨u, hcourse, hended⟩ := run_course env steps order bound world files
  have hbears := hcourse.bearsOut (opening_fresh env order world files).timely
  obtain ⟨_, _, hclosing⟩ := closing_eq env steps (run env steps order bound world files).1 u
  rw [hended, hclosing]
  exact hbears.congr rfl rfl rfl

/-- The index that follows an execution, with all actions registered. -/
theorem index_of_successor {scale : TimeScale τ} {session : Session σ} {settings : RunSettings}
    {base : DateTime} {turns : Nat} {e after : Execution σ} {jump : Option Int} {t : State σ}
    (executed : e.executed (.full scale session settings base turns) capturing = (.goOn jump, t))
    (start : after.start = advance jump t) :
    Handler.Jumps session e.step e.start.world ∧ (after.index : Int) = max 0 e.step.jumpTarget ∨
      ¬ Handler.Jumps session e.step e.start.world ∧ (after.index : Int) = e.index + 1 := by
  obtain ⟨v, world, answered, hjump⟩ := verdict_of_goOn executed
  have hnext := (Executes.of_executed executed).follows.next
  have hindex : after.index = (advance jump t).next := by rw [Execution.index, start]
  have hjumps :=
    (Handler.verdict_answers scale session settings base turns e.step answered).jump_eq
  rcases hjumps with ⟨jumps, htarget⟩ | ⟨stays, hnone⟩
  · left
    refine ⟨jumps, ?_⟩
    rw [← hjump, htarget, advance] at hindex
    simp only at hindex
    omega
  · right
    refine ⟨stays, ?_⟩
    rw [← hjump, hnone, advance] at hindex
    simp only [hnext] at hindex
    rw [hindex, Execution.index]
    rfl

/-- Every run goes through its steps in this way. Its executions and its outcomes correspond one
to one and in order; the first execution is that of step zero; after an execution comes the next
step, or the target of a jump whose script answered true, with negative targets counted as zero;
an execution that the deadline cut has a failed outcome, the last one. A run ends because no step
is next, because the last execution asked for it, because it was cancelled, or at its deadline; and
it does end, in a session whose queries are orderly, unless it goes on to its last execution. -/
theorem run_control_flow (scale : TimeScale τ) (session : Session σ) (settings : RunSettings)
    (base : DateTime) (turns : Nat) (steps : List Step) (order : Order) (bound : Nat)
    (world : World σ) (files : FileTree) :
    let env := Env.full scale session settings base turns
    let es := history env steps order bound world files
    let ended := run env steps order bound world files
    let os := ended.2.result.outcomes
    List.Forall₂ (fun e o => steps[e.index]? = some e.step ∧ o.index = e.index) es os ∧
    (∀ o ∈ os, 0 ≤ o.index ∧ o.index < steps.length) ∧
    (∀ o, os[0]? = some o → o.index = 0) ∧
    (∀ k e o after, es[k]? = some e → os[k]? = some o → os[k + 1]? = some after →
      Handler.Jumps session e.step e.start.world ∧ after.index = max 0 e.step.jumpTarget ∨
        ¬ Handler.Jumps session e.step e.start.world ∧ after.index = o.index + 1) ∧
    (∀ k e o, es[k]? = some e → os[k]? = some o →
      (e.executed env order.capturing).1 = .cut → o.status = .failed ∧ k + 1 = os.length) ∧
    BearsOut env order.capturing steps (opening env order world files).world.deadline es
      ended.2 ended.1 ∧
    ((∀ kind value, (session.find kind value).Orderly false) →
      Completes env steps order bound world files) := by
  intro env es ended os
  obtain ⟨u, hcourse, hended⟩ := run_course env steps order bound world files
  have hfresh := opening_fresh env order world files
  have hrecorded := run_recorded env steps order bound world files
  have hindexed : List.Forall₂
      (fun e o => steps[e.index]? = some e.step ∧ o.index = e.index) es os :=
    (List.forall₂_and_left _ _).mpr
      ⟨hcourse.here, hrecorded.imp fun _ _ hrecord => hrecord.index_eq⟩
  have hlength : es.length = os.length := hrecorded.length_eq
  refine ⟨hindexed, ?_, ?_, ?_, ?_, run_bearsOut env steps order bound world files, ?_⟩
  · intro o member
    obtain ⟨k, at_k⟩ := List.mem_iff_getElem?.mp member
    obtain ⟨e, _, here, hindex⟩ := forall₂_getElem? hindexed at_k
    obtain ⟨inside, _⟩ := List.getElem?_eq_some_iff.mp here
    omega
  · intro o head
    obtain ⟨e, at_head, hrecord⟩ := forall₂_getElem? hrecorded head
    rw [hrecord.index_eq, Execution.index, hcourse.start_of_head at_head, hfresh.next]
    rfl
  · intro k e o after at_k outcome_k outcome_next
    obtain ⟨e', at_k', hrecord⟩ := forall₂_getElem? hrecorded outcome_k
    obtain ⟨next, at_next, hrecord_next⟩ := forall₂_getElem? hrecorded outcome_next
    obtain rfl : e = e' := Option.some.inj (at_k.symm.trans at_k')
    obtain ⟨jump, t, executed, start⟩ := hcourse.successor at_k at_next
    rw [hrecord.index_eq, hrecord_next.index_eq]
    exact index_of_successor executed start
  · intro k e o at_k outcome_k cut
    obtain ⟨e', at_k', hrecord⟩ := forall₂_getElem? hrecorded outcome_k
    obtain rfl : e = e' := Option.some.inj (at_k.symm.trans at_k')
    refine ⟨hrecord.failed_of_cut cut, ?_⟩
    rcases hcourse.last_of_executed at_k with ⟨jump, hjump⟩ | ⟨hlast, _⟩
    · simp [hjump] at cut
    · exact hlast.trans hlength
  · intro orderly
    exact run_completes env
      (fun step _ => Handler.orderly_activity scale orderly settings base turns step) _ _ _ _

end BrowserSteps.Run
