import BrowserSteps.Proofs.Run.Attribution
import BrowserSteps.Proofs.Run.StopPolicy
import BrowserSteps.Proofs.Run.Explanation

/-!
What the result of an interrupted run says. The status is read off the outcomes: a run that the
deadline cut has a failed one, while a cancellation between two steps leaves no outcome, so that
such a run is reported as its executions went. The deadline bounds the time from the first step
on; what the network conditions take before that comes on top.
-/

namespace BrowserSteps.Run

variable {σ τ : Type} {env : Env σ} {capturing : Bool} {steps : List Step}

theorem Recorded.failed_iff {e : Execution σ} {o : Outcome} (h : Recorded env capturing e o) :
    o.status = .failed ↔ ¬ e.Succeeds env capturing := by
  rw [← h.passed_iff]
  cases h with
  | ended v world unsaved s _ _ _ outcome_eq =>
      rw [outcome_eq, endedOutcome]
      cases v.failed || (e.measured env v world).1 || unsaved <;> simp
  | cut t _ outcome_eq => simp [outcome_eq, cutOutcome]

theorem status_eq_failed_iff (r : RunResult) :
    r.status = .failed ↔ ∃ o ∈ r.outcomes, o.status = .failed := by
  simp [RunResult.status]

theorem status_eq_passed_iff (r : RunResult) : r.status = .passed ↔ r.status ≠ .failed := by
  unfold RunResult.status
  split <;> simp

/-- A run failed if and only if one of its executions did. -/
theorem failed_iff_of_recorded {es : List (Execution σ)} {r : RunResult}
    (recorded : List.Forall₂ (Recorded env capturing) es r.outcomes) :
    r.status = .failed ↔ ∃ e ∈ es, ¬ e.Succeeds env capturing := by
  rw [status_eq_failed_iff]
  constructor
  · rintro ⟨o, member, failed⟩
    obtain ⟨k, at_k⟩ := List.mem_iff_getElem?.mp member
    obtain ⟨e, e_at_k, hrecord⟩ := forall₂_getElem? recorded at_k
    exact ⟨e, List.mem_of_getElem? e_at_k, hrecord.failed_iff.mp failed⟩
  · rintro ⟨e, member, failed⟩
    obtain ⟨k, at_k⟩ := List.mem_iff_getElem?.mp member
    obtain ⟨o, o_at_k, hrecord⟩ := forall₂_getElem? recorded.flip at_k
    exact ⟨o, List.mem_of_getElem? o_at_k, hrecord.failed_iff.mpr failed⟩

/-- An execution that the deadline cut, or that asked for the stop, failed. -/
theorem not_succeeds_of_interrupted (scale : TimeScale τ) (session : Session σ)
    (settings : RunSettings) (base : DateTime) (turns : Nat) {e : Execution σ}
    (ending : (e.executed (.full scale session settings base turns) capturing).1 = .cut ∨
      (e.executed (.full scale session settings base turns) capturing).1 = .stop) :
    ¬ e.Succeeds (.full scale session settings base turns) capturing := by
  rcases ending with hcut | hstop
  · cases hexecuted : e.executed (.full scale session settings base turns) capturing with
    | mk ending t =>
        obtain rfl : ending = .cut := by simpa [hexecuted] using hcut
        exact (Executes.of_executed hexecuted).not_succeeds
  · rintro ⟨v, world, answered, passed, -⟩
    obtain ⟨asks, -⟩ := (ending_eq_stop_iff e).mp hstop
    obtain ⟨-, v', world', answered', failed⟩ :=
      (asksToStop_iff scale session settings base turns e).mp asks
    obtain ⟨rfl, rfl⟩ : v = v' ∧ world = world' := by simpa [answered] using answered'
    simp [passed] at failed

/-- A course that is cancelled has a step that would have been next. -/
theorem Course.next_of_cancelled {s u : State σ} {es : List (Execution σ)} {reason : End}
    (h : Course env capturing steps s es reason u) (cancelled : reason = .cancelled) :
    ∃ step, steps[u.next]? = some step := by
  induction h with
  | cancelled here => exact ⟨_, here⟩
  | next _ _ _ _ _ ih => exact ih cancelled
  | finished | stopped | cut | waiting | bounded => cases cancelled

/-- The status of every run with all actions. A run is failed if and only if one of its executions
failed. So a run that the deadline cut, or that a step stopped, is failed; but one that found
itself cancelled with a step still to come is passed if all steps up to there succeeded. -/
theorem run_status (scale : TimeScale τ) (session : Session σ) (settings : RunSettings)
    (base : DateTime) (turns : Nat) (steps : List Step) (order : Order) (bound : Nat)
    (world : World σ) (files : FileTree) :
    let env := Env.full scale session settings base turns
    let es := history env steps order bound world files
    let ended := run env steps order bound world files
    let r := ended.2.result
    (r.status = .failed ↔ ∃ e ∈ es, ¬ e.Succeeds env order.capturing) ∧
    (ended.1 = .cut ∨ ended.1 = .stopped → r.status = .failed) ∧
    (ended.1 = .cancelled → (∃ step, steps[ended.2.next]? = some step) ∧
      (r.status = .passed ↔ ∀ e ∈ es, e.Succeeds env order.capturing)) := by
  intro env es ended r
  obtain ⟨u, hcourse, hended⟩ := run_course env steps order bound world files
  have hfailed : r.status = .failed ↔ ∃ e ∈ es, ¬ e.Succeeds env order.capturing :=
    failed_iff_of_recorded (run_recorded env steps order bound world files)
  have hbears := hcourse.bearsOut (opening_fresh env order world files).timely
  refine ⟨hfailed, ?_, ?_⟩
  · intro interrupted
    obtain ⟨e, member, ending⟩ : ∃ e ∈ es, (e.executed env order.capturing).1 = .cut ∨
        (e.executed env order.capturing).1 = .stop := by
      rcases interrupted with hcut | hstopped
      · have hreason : (run env steps order bound world files).1 = .cut := hcut
        rw [hreason] at hbears
        obtain ⟨⟨e, last, cut⟩, -⟩ := hbears
        exact ⟨e, List.mem_of_getLast? last, .inl cut⟩
      · have hreason : (run env steps order bound world files).1 = .stopped := hstopped
        rw [hreason] at hbears
        obtain ⟨e, last, stopped⟩ := hbears
        exact ⟨e, List.mem_of_getLast? last, .inr stopped⟩
    exact hfailed.mpr
      ⟨e, member, not_succeeds_of_interrupted scale session settings base turns ending⟩
  · intro cancelled
    obtain ⟨log, outcomes, hclosing⟩ := closing_eq env steps ended.1 u
    obtain ⟨step, here⟩ := hcourse.next_of_cancelled cancelled
    refine ⟨⟨step, ?_⟩, ?_⟩
    · rw [show ended.2 = closing env steps ended.1 u from hended, hclosing]
      exact here
    · rw [status_eq_passed_iff, Ne, hfailed]
      simp

/-- The two steps of a run that is cancelled during the first one, which passes. -/
def cancelledSteps : List Step := [{ name := "a", action := .script }, { name := "b", action := .noop }]

/-- A run that a cancellation ended, with a step still to come, can be reported as passed. -/
theorem passed_despite_cancellation :
    let ended := run (Env.full .binary cancellingSession {} ⟨0⟩ 0) cancelledSteps {} 2
      { shared := () } {}
    ended.1 = .cancelled ∧ ended.2.next < cancelledSteps.length ∧ ended.2.result.status ≠ .failed := by
  decide +kernel

/-- The world in which a run begins: earlier cancellations and deadlines do not count. -/
def begun (world : World σ) : World σ :=
  { world with
    cancelled := false, deadline := none, cancelAt := world.cancelAt.filter (world.clock ≤ ·) }

/-- How long it takes to set the network conditions, if the settings ask for that. -/
def throttlingTime (env : Env σ) (world : World σ) : Nat :=
  let c := env.settings
  if c.throttling then
    ((env.session.throttle c.latency c.download c.upload).runAlone (begun world)).2.clock -
      world.clock
  else 0

theorem timely_begun (world : World σ) : (begun world).Timely := by
  refine ⟨fun _ impossible => (by cases impossible), ?_⟩
  intro _ time due
  change world.clock ≤ time
  simpa using (Option.filter_eq_some_iff.mp due).2

theorem world_prepareCapture (startedAt : DateTime) (env : Env σ) (capturing : Bool)
    (s : State σ) : (prepareCapture startedAt env capturing s).world = s.world := by
  cases capturing with
  | false => rfl
  | true =>
      simp only [prepareCapture, openDirectory, if_true]
      generalize s.files.makeDirectories _ = made
      obtain ⟨result, files⟩ := made
      cases result <;> rfl

/-- The first step begins once the network conditions are set. -/
theorem clock_opening (env : Env σ) (order : Order) (world : World σ) (files : FileTree) :
    (opening env order world files).world.clock = world.clock + throttlingTime env world := by
  simp only [opening, world_prepareCapture, throttle, throttlingTime]
  split
  · have hlater := (env.session.throttle env.settings.latency env.settings.download
      env.settings.upload).before_runAlone (timely_begun world)
    exact (Nat.add_sub_cancel' hlater.clock).symm
  · rfl

theorem deadline_opening (env : Env σ) (order : Order) (world : World σ) (files : FileTree) :
    (opening env order world files).world.deadline =
      deadlineFrom env.settings (world.clock + throttlingTime env world) := by
  rw [← clock_opening env order world files]
  simp only [opening, world_prepareCapture]

/-- A deadline is as far from any clock as from zero. -/
theorem deadlineFrom_eq (settings : RunSettings) (clock : Nat) :
    deadlineFrom settings clock = (deadlineFrom settings 0).map (clock + ·) := by
  unfold deadlineFrom
  split
  · split <;> simp
  · rfl

/-- Every run with a timeout ends at most that long after its first step began, and its first step
begins once the network conditions are set. Without any to set, the timeout bounds the whole
run. -/
theorem run_duration (env : Env σ) (steps : List Step) (order : Order) (bound : Nat)
    (world : World σ) (files : FileTree) :
    let r := (run env steps order bound world files).2.result
    ∃ started finished, r.startedAt = some started ∧ r.finishedAt = some finished ∧
      (∀ limit ∈ deadlineFrom env.settings 0,
        finished.since started ≤ throttlingTime env world + limit) ∧
      (env.settings.throttling = false → throttlingTime env world = 0) := by
  intro r
  obtain ⟨u, hcourse, hended⟩ := run_course env steps order bound world files
  obtain ⟨log, outcomes, hclosing⟩ := closing_eq env steps
    (run env steps order bound world files).1 u
  have hfresh := opening_fresh env order world files
  have hlater := hcourse.grows.world hfresh.timely
  have hstarted := hcourse.grows.startedAt.trans hfresh.startedAt
  refine ⟨env.base.add world.clock, u.now env, ?_, ?_, ?_, ?_⟩
  · simp only [r, hended, hclosing, hstarted]
  · simp only [r, hended, hclosing]
  · intro limit set
    have hdue : u.world.deadline = some (world.clock + throttlingTime env world + limit) := by
      rw [hlater.deadline, deadline_opening, deadlineFrom_eq, set, Option.map_some]
    have hclock := hlater.timely.deadline _ hdue
    rw [State.now, since_add]
    omega
  · intro unthrottled
    simp [throttlingTime, unthrottled]

/-- A session that takes five seconds to set the network conditions. -/
def slowSession : Session Unit :=
  { cancellingSession with throttle := fun _ _ _ => .pause 5000000 (.done (.ok ())) }

/-- A run with a timeout of one second can take five. -/
theorem duration_exceeds_timeout :
    let env := Env.full .binary slowSession { timeout := .whole 1, throttling := true } ⟨0⟩ 0
    let r := (run env [{ name := "a", action := .noop }] {} 2 { shared := () } {}).2.result
    deadlineFrom env.settings 0 = some 1000000 ∧
      r.startedAt = some ⟨0⟩ ∧ r.finishedAt = some (DateTime.add ⟨0⟩ 5000000) := by
  decide +kernel

end BrowserSteps.Run
