import BrowserSteps.Proofs.Run.ControlFlow
import BrowserSteps.Proofs.Run.Measurement
import BrowserSteps.Proofs.Run.StaticErrors

/-!
The order of markers. In a step list without jumps the steps are executed in the order of the list,
so that a start marker is pending in a run before a step if and only if it is in the list. A finish
marker then comes before its start marker in the run exactly if the checks of the list say so, as long
as they come to their end.
-/

namespace BrowserSteps.Run

variable {σ τ : Type}

/-- No step jumps but those whose action is to jump. -/
def Env.Plain (env : Env σ) : Prop :=
  ∀ step, step.action ≠ .jump → ∀ w v later,
    (activity env step).run env.turns w = (.verdict v, later) → v.jump = none

theorem plain_full (scale : TimeScale τ) (session : Session σ) (settings : RunSettings)
    (base : DateTime) (turns : Nat) : (Env.full scale session settings base turns).Plain := by
  intro step stays w v later answered
  have answers := Handler.verdict_answers scale session settings base turns step answered
  rcases answers.jump_eq with ⟨jumps, -⟩ | ⟨-, hjump⟩
  · exact absurd jumps.1 stays
  · exact hjump

section

variable {env : Env σ} {capturing : Bool} {steps : List Step}

/-- After a step that goes on a start is pending in the run if it is in the list. -/
theorem pending_of_goOn {e : Execution σ} {jump : Option Int} {t : State σ}
    (executed : e.executed env capturing = (.goOn jump, t)) :
    t.pending.isSome = Lint.pendingAfter e.start.pending.isSome e.step := by
  have executes := Executes.of_executed executed
  have htally := congrArg Tally.pending (executes.tally (by simp))
  obtain ⟨v, world, answered, stays⟩ :
      ∃ v world, e.activityEnd env = (.verdict v, world) ∧ v.stop = false := by
    cases executes with
    | ended v world unsaved s answered captured ending_eq =>
        refine ⟨v, world, answered, ?_⟩
        cases hstop : v.stop with
        | false => rfl
        | true => simp [hstop] at ending_eq
    | cutInCapture _ _ _ _ ending_eq | cutInActivity _ _ _ ending_eq | unfinished _ _ ending_eq =>
        cases ending_eq
  have hcloses : e.closes env = decide (e.step.marker = .finish) := by
    simp only [Execution.closes, answered, stays, and_true]
  change t.pending = _ at htally
  rw [htally, Tally.after, hcloses]
  cases hmarker : e.step.marker <;>
    simp [Execution.opens, hmarker, Lint.pendingAfter, Tally.settled, State.tally]

/-- Without jumps every step is executed with a start pending if one is pending there in the list. -/
theorem Course.pending_eq {s u : State σ} {es : List (Execution σ)} {reason : End}
    (h : Course env capturing steps s es reason u) (plain : env.Plain)
    (straight : ∀ step ∈ steps, step.action ≠ .jump)
    (agrees : s.pending.isSome = Lint.pendingAt steps s.next) :
    ∀ e ∈ es, e.start.pending.isSome = Lint.pendingAt steps e.index := by
  induction h with
  | @next s t u e rest reason jump start here running executed onward ih =>
      subst start
      refine List.forall_mem_cons.mpr ⟨agrees, ih ?_⟩
      obtain ⟨v, world, answered, hjump⟩ := verdict_of_goOn executed
      have stays := straight e.step (List.mem_of_getElem? here)
      obtain rfl : jump = none := hjump ▸ plain e.step stays _ v world answered
      have hnext : (advance none t).next = e.index + 1 :=
        congrArg (· + 1) (Executes.of_executed executed).follows.next
      rw [hnext, Lint.pendingAt_succ here]
      change t.pending.isSome = _
      rw [pending_of_goOn executed, agrees]
      rfl
  | stopped start | cut start =>
      subst start
      exact List.forall_mem_singleton.mpr agrees
  | finished | cancelled | waiting | bounded => exact List.forall_mem_nil _

end

/-- A finish marker is rejected for want of a start exactly if none is pending. -/
theorem rejects_noStart_iff {env : Env σ} {e : Execution σ} {v : Verdict} {world : World σ}
    (processed : e.step.marker = .finish ∧ v.stop = false) :
    e.Rejects env v world .noStart ↔ e.start.pending = none := by
  have hpending : (e.noted env v.entries world).pending = e.start.pending := by
    simp only [Execution.noted, noteAll_eq, markStart_eq, processed.1, reduceCtorEq, if_false]
  cases hstart : e.start.pending with
  | none =>
      refine iff_of_true ?_ rfl
      simp [Execution.Rejects, Execution.measured, markFinish, processed, hpending, hstart,
        Measure.settle, Measure.finish, State.note, State.now]
  | some start =>
      refine iff_of_false (fun rejects => ?_) (by simp)
      by_cases known : e.step.measureSlot ∈ measureSlots
      · have hanswer := congrArg Prod.fst rejects
        simp [Execution.measured, markFinish, processed, hpending, hstart, Measure.settle,
          Measure.finish, known] at hanswer
      · -- The marker is rejected for its slot, and what it says tells the two apart.
        have hentries := congrArg (·.2.result.log.entries.getLast?) rejects
        simp only [Execution.measured, markFinish, processed, hpending, hstart, Measure.settle,
          Measure.finish, known, Bool.not_false, and_self, if_true, if_false, State.note,
          RunResult.note, Log.entries_append, List.getLast?_concat, Option.some.injEq] at hentries
        exact absurd ((String.append_right_inj _).mp hentries) (by decide)

/-- Without jumps the checks come to their end unless the slot of a finish marker is too long. -/
theorem complete_iff_of_straight {steps : List Step}
    (straight : ∀ step ∈ steps, step.action ≠ .jump) :
    Lint.Complete steps ↔
      ∀ step ∈ steps, step.marker = .finish → Text.isLongNumber step.measureSlot = false := by
  rw [Lint.complete_iff]
  refine forall₂_congr fun step member => ?_
  simp only [Lint.PrintsLong, straight step member, false_and, or_false, not_and,
    Bool.not_eq_true]

/-- In a run of a step list without jumps a finish marker that is processed is rejected for want of a
start marker exactly if that is reported at its index. The checks of the list report nothing if one of
its finish markers has a slot that is too long to be written. -/
theorem run_marker_order (env : Env σ) (steps : List Step) (order : Order) (bound : Nat)
    (world : World σ) (files : FileTree) (plain : env.Plain)
    (straight : ∀ step ∈ steps, step.action ≠ .jump) :
    (Lint.Complete steps ↔
      ∀ step ∈ steps, step.marker = .finish → Text.isLongNumber step.measureSlot = false) ∧
    ∀ e ∈ history env steps order bound world files, ∀ v after,
      e.activityEnd env = (.verdict v, after) → e.step.marker = .finish → v.stop = false →
        (Lint.Reports steps "end-before-start" e.index ↔
          Lint.Complete steps ∧ e.Rejects env v after .noStart) := by
  refine ⟨complete_iff_of_straight straight, ?_⟩
  intro e member v after answered finish stays
  obtain ⟨u, hcourse, -⟩ := run_course env steps order bound world files
  have hfresh := opening_fresh env order world files
  have agrees : e.start.pending.isSome = Lint.pendingAt steps e.index := by
    refine hcourse.pending_eq plain straight ?_ e member
    rw [hfresh.pending, hfresh.next]
    rfl
  rw [rejects_noStart_iff ⟨finish, stays⟩, Lint.reports_finishBeforeStart_iff (hcourse.here e member),
    ← agrees, and_iff_right finish, Option.isSome_eq_false_iff, Option.isNone_iff_eq_none]

/-- A measurement, and a finish marker whose start marker the measurement has used up. -/
def usedUpSteps : List Step :=
  [{ name := "a", action := .noop, marker := .start },
    { name := "b", action := .noop, marker := .finish, measureSlot := 1 },
    { name := "c", action := .noop, marker := .finish, measureSlot := 2 }]

theorem run_marker_order_of_usedUp :
    let env := Env.full .binary cancellingSession {} ⟨0⟩ 0
    ∃ b c, b ∈ history env usedUpSteps {} 3 { shared := () } {} ∧
      c ∈ history env usedUpSteps {} 3 { shared := () } {} ∧
      (b.index, c.index) = (1, 2) ∧
      ¬ b.Rejects env .passed b.start.world .noStart ∧
      c.Rejects env .passed c.start.world .noStart := by
  intro env
  let es := history env usedUpSteps {} 3 { shared := () } {}
  have hseen : es.map (fun e => (e.step, e.index)) =
      [(usedUpSteps[0], 0), (usedUpSteps[1], 1), (usedUpSteps[2], 2)] := by decide +kernel
  obtain ⟨a, rest, hes, ha, hrest⟩ := List.map_eq_cons_iff.mp hseen
  obtain ⟨b, last, rfl, hb, hlast⟩ := List.map_eq_cons_iff.mp hrest
  obtain ⟨c, none, rfl, hc, -⟩ := List.map_eq_cons_iff.mp hlast
  rw [Prod.mk.injEq] at hb hc
  have second : b ∈ es := by simp [hes]
  have third : c ∈ es := by simp [hes]
  obtain ⟨complete_iff, agrees⟩ := run_marker_order env usedUpSteps {} 3 { shared := () } {}
    (plain_full _ _ _ _ _) (by decide)
  have complete : Lint.Complete usedUpSteps := complete_iff.mpr (by decide +kernel)
  have hactivity (e : Execution Unit) (noop : e.step.action = .noop) :
      e.activityEnd env = (.verdict .passed, e.start.world) := by
    rw [Execution.activityEnd, Handler.activity_full, noop]
    rfl
  have hb_iff := agrees b second .passed _ (hactivity b (by rw [hb.1]; rfl)) (by rw [hb.1]; rfl) rfl
  have hc_iff := agrees c third .passed _ (hactivity c (by rw [hc.1]; rfl)) (by rw [hc.1]; rfl) rfl
  refine ⟨b, c, second, third, by rw [hb.2, hc.2], ?_, ?_⟩
  · intro rejects
    have reported := hb_iff.mpr ⟨complete, rejects⟩
    rw [hb.2] at reported
    exact absurd reported (by decide +kernel)
  · rw [hc.2] at hc_iff
    exact (hc_iff.mp (by decide +kernel)).2

/-- A finish marker without a start marker, whose slot has too many digits to be written. -/
def earlyLongStep : Step :=
  { name := "a", action := .noop, marker := .finish, measureSlot := Nat.pow 10 Text.digitLimit }

/-- A run can reject a finish marker for want of a start where the checks of the list break off. -/
theorem run_marker_order_not_exact :
    let env := Env.full .binary cancellingSession {} ⟨0⟩ 0
    ∃ e, history env [earlyLongStep] {} 1 { shared := () } {} = [e] ∧ e.index = 0 ∧
      e.activityEnd env = (.verdict .passed, e.start.world) ∧
      e.Rejects env .passed e.start.world .noStart ∧
      Lint.issues [earlyLongStep] = .error .tooLong ∧
      ¬ Lint.Reports [earlyLongStep] "end-before-start" 0 := by
  intro env
  let es := history env [earlyLongStep] {} 1 { shared := () } {}
  have hseen : es.map (fun e => (e.step, e.index, e.start.pending)) =
      [(earlyLongStep, 0, none)] := by decide +kernel
  obtain ⟨e, last, hes, he, hlast⟩ := List.map_eq_cons_iff.mp hseen
  obtain rfl := List.map_eq_nil_iff.mp hlast
  rw [Prod.mk.injEq, Prod.mk.injEq] at he
  have noop : e.step.action = .noop := by rw [he.1]; rfl
  have finish : e.step.marker = .finish := by rw [he.1]; rfl
  have passed : e.activityEnd env = (.verdict .passed, e.start.world) := by
    rw [Execution.activityEnd, Handler.activity_full, noop]
    rfl
  have broken : Lint.issues [earlyLongStep] = .error .tooLong := by decide +kernel
  refine ⟨e, hes, he.2.1, passed, (rejects_noStart_iff ⟨finish, rfl⟩).mpr he.2.2, broken, ?_⟩
  rintro ⟨found, complete, -⟩
  cases broken.symm.trans complete

end BrowserSteps.Run
