import BrowserSteps.Proofs.Run.ControlFlow
import BrowserSteps.Proofs.Run.Measurement

/-!
Which steps stop a run. The dispatch of a step asks for the stop exactly if it failed and the step
stops on errors; what fails after the dispatch, a finish marker or a screenshot, asks for nothing.
A dispatch that the deadline cuts comes to no verdict, and then the deadline ends the run. After a
step that asks for the stop nothing is executed, and its finish marker is passed over.
-/

namespace BrowserSteps

/-- A verdict stops exactly if it failed and the step stops on errors. -/
theorem Handler.Answers.stop_iff {σ : Type} {session : Session σ} {step : Step} {w : World σ}
    {v : Verdict} (h : Handler.Answers session step w v) :
    v.stop = true ↔ step.stopOnError = true ∧ v.failed = true := by
  have hplain {v : Verdict} (plain : Verdict.Plain step v) :
      v.stop = true ↔ step.stopOnError = true ∧ v.failed = true := by
    cases plain <;> simp [Verdict.passed, Verdict.failure]
  cases h with
  | plain plain _ => exact hplain plain
  | told | jumped => simp [Verdict.noted]
  | reported _ plain => exact (hplain plain :)

namespace Run

variable {σ τ : Type} {env : Env σ} {capturing : Bool} {steps : List Step}

/-- The dispatch of the step came to an end and failed: the action was refused, its handler
recorded a failure, or a failure escaped the handler. -/
def Execution.DispatchFailed (env : Env σ) (e : Execution σ) : Prop :=
  ∃ v world, e.activityEnd env = (.verdict v, world) ∧ v.failed = true

/-- The dispatch of the step came to an end and asked the run to stop. -/
def Execution.AsksToStop (env : Env σ) (e : Execution σ) : Prop :=
  ∃ v world, e.activityEnd env = (.verdict v, world) ∧ v.stop = true

theorem asksToStop_iff (scale : TimeScale τ) (session : Session σ) (settings : RunSettings)
    (base : DateTime) (turns : Nat) (e : Execution σ) :
    e.AsksToStop (.full scale session settings base turns) ↔
      e.step.stopOnError = true ∧ e.DispatchFailed (.full scale session settings base turns) := by
  have hstop {v : Verdict} {world : World σ}
      (answered : e.activityEnd (.full scale session settings base turns) = (.verdict v, world)) :
      v.stop = true ↔ e.step.stopOnError = true ∧ v.failed = true :=
    (Handler.verdict_answers scale session settings base turns e.step answered).stop_iff
  constructor
  · rintro ⟨v, world, answered, stops⟩
    obtain ⟨stopOnError, failed⟩ := (hstop answered).mp stops
    exact ⟨stopOnError, v, world, answered, failed⟩
  · rintro ⟨stopOnError, v, world, answered, failed⟩
    exact ⟨v, world, answered, (hstop answered).mpr ⟨stopOnError, failed⟩⟩

/-- After its dispatch a step does what the verdict says, unless the deadline cuts its
screenshot. -/
theorem ending_of_answered (capturing : Bool) {e : Execution σ} {v : Verdict} {world : World σ}
    (answered : e.activityEnd env = (.verdict v, world)) :
    (e.executed env capturing).1 = (if v.stop then .stop else .goOn v.jump) ∨
      (e.executed env capturing).1 = .cut := by
  cases hexecuted : e.executed env capturing with
  | mk ending t =>
      cases Executes.of_executed hexecuted with
      | ended v' world' _ _ answered' _ ending_eq =>
          obtain ⟨rfl, rfl⟩ : v = v' ∧ world = world' := by simpa [answered] using answered'
          exact .inl ending_eq
      | cutInCapture _ _ _ _ ending_eq => exact .inr ending_eq
      | cutInActivity _ _ answered' | unfinished _ answered' => simp [answered] at answered'

theorem ending_eq_stop_iff (e : Execution σ) :
    (e.executed env capturing).1 = .stop ↔
      e.AsksToStop env ∧ (e.executed env capturing).1 ≠ .cut := by
  constructor
  · intro hstop
    refine ⟨?_, by simp [hstop]⟩
    cases hexecuted : e.executed env capturing with
    | mk ending t =>
        obtain rfl : ending = .stop := by simpa [hexecuted] using hstop
        cases Executes.of_executed hexecuted with
        | ended v world _ _ answered _ ending_eq =>
            refine ⟨v, world, answered, ?_⟩
            cases hv : v.stop with
            | true => rfl
            | false => simp [hv] at ending_eq
        | cutInCapture _ _ _ _ ending_eq | cutInActivity _ _ _ ending_eq
        | unfinished _ _ ending_eq => cases ending_eq
  · rintro ⟨⟨v, world, answered, stops⟩, uncut⟩
    have hending := (ending_of_answered capturing answered).resolve_right uncut
    rwa [stops, if_pos rfl] at hending

/-- The finish marker of a step that asks for the stop changes nothing. -/
theorem measured_of_stop (e : Execution σ) {v : Verdict} (world : World σ) (stops : v.stop = true) :
    e.measured env v world = (false, e.noted env v.entries world) := by
  simp [Execution.measured, markFinish, stops]

/-- What the execution of a step that asks for the stop leaves of the measurements: those that were
there, and the start that its own start marker set. -/
theorem tally_of_asksToStop {e : Execution σ} {ending : StepEnd} {t : State σ}
    (executes : Executes env capturing e ending t) (asks : e.AsksToStop env) :
    t.tally = { e.start.tally with
      pending := if e.opens then some (e.startedAt env) else e.start.pending } := by
  obtain ⟨v, world, answered, stops⟩ := asks
  have hcloses : e.closes env = false := by simp [Execution.closes, answered, stops]
  have complete : ending ≠ .unfinished := by
    intro unfinished
    cases executes with
    | ended v' _ _ _ _ _ ending_eq => exact (ending_of_verdict v' ending_eq).2 unfinished
    | cutInCapture _ _ _ _ ending_eq | cutInActivity _ _ _ ending_eq => simp [ending_eq] at unfinished
    | unfinished _ answered' => simp [answered] at answered'
  rw [executes.tally complete, Tally.after, hcloses]
  cases e.opens <;> rfl

theorem tally_closing (env : Env σ) (steps : List Step) (reason : End) (s : State σ) :
    (closing env steps reason s).tally = s.tally := by
  obtain ⟨log, outcomes, hclosing⟩ := closing_eq env steps reason s
  rw [hclosing]
  rfl

/-- The course ends with an execution that asks for the stop: nothing is executed after it, and
the measurements stay as it leaves them. -/
theorem Course.last_of_asksToStop {s u : State σ} {es : List (Execution σ)} {reason : End}
    (h : Course env capturing steps s es reason u) {k : Nat} {e : Execution σ}
    (at_k : es[k]? = some e) (asks : e.AsksToStop env) :
    k + 1 = es.length ∧ (reason = .stopped ∨ reason = .cut) ∧ e.executed env capturing =
      (if reason = .stopped then .stop else .cut, u) := by
  induction h generalizing k with
  | next start here running executed onward ih =>
      cases k with
      | zero =>
          cases at_k
          obtain ⟨v, world, answered, stops⟩ := asks
          rcases ending_of_answered capturing answered with hending | hending
          · simp [executed, stops] at hending
          · simp [executed] at hending
      | succ k => simpa using ih at_k
  | stopped start here running executed =>
      obtain ⟨rfl, rfl⟩ : k = 0 ∧ e = _ := by simpa [List.getElem?_singleton, eq_comm] using at_k
      exact ⟨rfl, .inl rfl, executed⟩
  | cut start here running executed =>
      obtain ⟨rfl, rfl⟩ : k = 0 ∧ e = _ := by simpa [List.getElem?_singleton, eq_comm] using at_k
      exact ⟨rfl, .inr rfl, executed⟩
  | finished | cancelled | waiting | bounded => cases at_k

/-- When every run with all actions stops. A step asks for the stop if and only if it stops on
errors and its dispatch failed, and it stops the run if and only if it asks and the deadline does
not come first. A failure that escapes the handler of a step fails its dispatch. A step whose
dispatch passed goes on to where its verdict says, whether or not its finish marker and its
screenshot failed, and so does one that does not stop on errors. A step that asks for the stop is the
last one of the run; its finish marker changes nothing, so that the measurements stay those from
before the step, its own start marker apart. -/
theorem run_stops (scale : TimeScale τ) (session : Session σ) (settings : RunSettings)
    (base : DateTime) (turns : Nat) (steps : List Step) (order : Order) (bound : Nat)
    (world : World σ) (files : FileTree) :
    let env := Env.full scale session settings base turns
    let es := history env steps order bound world files
    let ended := run env steps order bound world files
    (∀ e ∈ es, (e.AsksToStop env ↔ e.step.stopOnError = true ∧ e.DispatchFailed env) ∧
      ((e.executed env order.capturing).1 = .stop ↔
        e.AsksToStop env ∧ (e.executed env order.capturing).1 ≠ .cut)) ∧
    (∀ e ∈ es, ∀ failure, e.Escapes env failure → e.DispatchFailed env) ∧
    (∀ e ∈ es, ∀ v after, e.activityEnd env = (.verdict v, after) →
      v.failed = false ∨ e.step.stopOnError = false →
        (e.executed env order.capturing).1 = .goOn v.jump ∨
          (e.executed env order.capturing).1 = .cut) ∧
    (∀ k e, es[k]? = some e → e.AsksToStop env →
      k + 1 = es.length ∧ (ended.1 = .stopped ∨ ended.1 = .cut) ∧
      (∀ v after, e.activityEnd env = (.verdict v, after) →
        e.measured env v after = (false, e.noted env v.entries after)) ∧
      ended.2.tally = { e.start.tally with
        pending := if e.opens then some (e.startedAt env) else e.start.pending }) := by
  intro env es ended
  obtain ⟨u, hcourse, hended⟩ := run_course env steps order bound world files
  have hasks (e : Execution σ) :
      e.AsksToStop env ↔ e.step.stopOnError = true ∧ e.DispatchFailed env :=
    asksToStop_iff scale session settings base turns e
  refine ⟨fun e _ => ⟨hasks e, ending_eq_stop_iff e⟩, ?_, ?_, ?_⟩
  · intro e _ failure escapes
    obtain ⟨after, unexpected⟩ := activityEnd_of_escapes scale session settings base turns escapes
    exact ⟨_, after, unexpected, rfl⟩
  · intro e _ v after answered harmless
    have hgoes : v.stop = false := by
      rw [← Bool.not_eq_true]
      intro stops
      obtain ⟨stopOnError, v', after', answered', failed⟩ :=
        (hasks e).mp ⟨v, after, answered, stops⟩
      obtain ⟨rfl, rfl⟩ : v = v' ∧ after = after' := by simpa [answered] using answered'
      rcases harmless with passed | lenient
      · simp [passed] at failed
      · simp [lenient] at stopOnError
    simpa [hgoes] using ending_of_answered order.capturing answered
  · intro k e at_k asks
    obtain ⟨last, hreason, executed⟩ := hcourse.last_of_asksToStop at_k asks
    refine ⟨last, hreason, ?_, ?_⟩
    · intro v after answered
      obtain ⟨v', after', answered', stops⟩ := asks
      obtain ⟨rfl, rfl⟩ : v = v' ∧ after = after' := by simpa [answered] using answered'
      exact measured_of_stop e after stops
    · rw [hended, tally_closing]
      exact tally_of_asksToStop (Executes.of_executed executed) asks

end Run

end BrowserSteps
