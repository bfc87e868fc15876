import BrowserSteps.Proofs.Routine.Clock
import BrowserSteps.Proofs.Run.History

/-!
What each phase of a step does to the state of a run: start marker, entries, finish marker,
screenshot, outcome. The cases of a phase are said here once, with the state that each leads to.
From them follows what no phase touches, and that time and the log only grow.
-/

namespace BrowserSteps.Run

variable {σ : Type}

theorem markStart_eq (env : Env σ) (step : Step) (s : State σ) :
    markStart env step s =
      { s with pending := if step.marker = .start then some (s.now env) else s.pending } := by
  unfold markStart
  split <;> rfl

theorem noteAll_eq (env : Env σ) (name : String) (messages : List String) (s : State σ) :
    s.noteAll env name messages =
      { s with result := { s.result with
          log := ⟨s.result.log.entries ++ messages.map (Log.entry (s.now env) name)⟩ } } := by
  induction messages generalizing s with
  | nil => simp [State.noteAll]
  | cons message rest ih =>
      have htail := ih (s.note env name message)
      simp only [State.noteAll, List.foldl_cons] at htail ⊢
      rw [htail]
      simp [State.note, RunResult.note, State.now]

/-- The cases of a finish marker. -/
inductive Finished (env : Env σ) (step : Step) (stop : Bool) (s : State σ) :
    Bool × State σ → Prop where
  | ignored (h : ¬ (step.marker = .finish ∧ stop = false)) :
      Finished env step stop s (false, s)
  | measured {start : DateTime} (h : step.marker = .finish ∧ stop = false)
      (pending : s.pending = some start) (slot : step.measureSlot ∈ measureSlots) :
      Finished env step stop s (false,
        { s with
          pending := none
          result := s.result.putSample step.measureSlot (Measure.sample start (s.now env)) })
  | refused {fault : MarkerFault} (h : step.marker = .finish ∧ stop = false)
      (unusable : s.pending = none ∨ step.measureSlot ∉ measureSlots) :
      Finished env step stop s (true, ({ s with pending := none }).note env step.name fault.message)

theorem markFinish_finished (env : Env σ) (step : Step) (stop : Bool) (s : State σ) :
    Finished env step stop s (markFinish env step stop s) := by
  by_cases h : step.marker = .finish ∧ stop = false
  · cases hpending : s.pending with
    | none =>
        have heq : markFinish env step stop s =
            (true, ({ s with pending := none }).note env step.name MarkerFault.noStart.message) := by
          simp [markFinish, h, hpending, Measure.settle, Measure.finish, State.note, State.now]
        exact heq ▸ .refused h (.inl hpending)
    | some start =>
        by_cases hslot : step.measureSlot ∈ measureSlots
        · have heq : markFinish env step stop s = (false, { s with
              pending := none
              result := s.result.putSample step.measureSlot
                (Measure.sample start (s.now env)) }) := by
            simp [markFinish, h, hpending, Measure.settle, Measure.finish, hslot]
          exact heq ▸ .measured h hpending hslot
        · have heq : markFinish env step stop s = (true,
              ({ s with pending := none }).note env step.name MarkerFault.unknownSlot.message) := by
            simp [markFinish, h, hpending, Measure.settle, Measure.finish, hslot, State.note,
              State.now]
          exact heq ▸ .refused h (.inr hslot)
  · have heq : markFinish env step stop s = (false, s) := by
      simp only [markFinish, Bool.not_eq_true', h, if_false]
    exact heq ▸ .ignored h

/-- The cases of a screenshot. -/
inductive Captured (env : Env σ) (capturing : Bool) (step : Step) (s : State σ) :
    Part Bool × State σ → Prop where
  | unasked (h : (capturing && step.capture) = false) :
      Captured env capturing step s (.done false, s)
  | saved {path : Path} {files : FileTree} {world : World σ}
      (h : (capturing && step.capture) = true)
      (passing : s.world.Timely → s.world.Before world)
      (written : saveScreenshot env step.name s = (.done (.ok path), { s with world, files })) :
      Captured env capturing step s (.done false, { s with world, files })
  | refused {e : Failure} {world : World σ} (h : (capturing && step.capture) = true)
      (passing : s.world.Timely → s.world.Before world)
      (failed : saveScreenshot env step.name s = (.done (.error e), { s with world })) :
      Captured env capturing step s
        (.done true, ({ s with world }).note env step.name (Capture.failureMessage e))
  | cut {world : World σ} (h : (capturing && step.capture) = true)
      (passing : s.world.Timely → s.world.Before world)
      (deadline : world.deadline = some world.clock)
      (failed : saveScreenshot env step.name s = (.cut, { s with world })) :
      Captured env capturing step s (.cut, { s with world })

theorem markCapture_captured (env : Env σ) (capturing : Bool) (step : Step) (s : State σ) :
    Captured env capturing step s (markCapture env capturing step s) := by
  cases h : capturing && step.capture with
  | false =>
      have heq : markCapture env capturing step s = (.done false, s) := by
        simp [markCapture, h]
      exact heq ▸ .unasked h
  | true =>
      have hself : s.world.Timely → s.world.Before s.world := World.Timely.before_self
      have hpassing := env.session.screenshot.before_runAlone (w := s.world)
      simp only [markCapture, h, if_true, capture]
      cases hsave : saveScreenshot env step.name s with
      | mk part t =>
          have hcases := hsave
          unfold saveScreenshot at hcases
          split at hcases
          next =>
            cases hcases
            exact .refused h hself hsave
          next =>
            split at hcases
            next world hrun =>
              cases hcases
              simp only [hrun] at hpassing
              exact .cut h hpassing (env.session.screenshot.deadline_of_runAlone hrun) hsave
            next e world hrun =>
              cases hcases
              simp only [hrun] at hpassing
              exact .refused h hpassing hsave
            next bytes world hrun =>
              simp only [hrun] at hpassing
              simp only at hcases
              split at hcases
              next =>
                cases hcases
                exact .saved h hpassing hsave
              next =>
                cases hcases
                exact .refused h hpassing hsave

theorem captured_of_eq {env : Env σ} {capturing : Bool} {step : Step} {s : State σ}
    {answer : Part Bool × State σ} (h : markCapture env capturing step s = answer) :
    Captured env capturing step s answer :=
  h ▸ markCapture_captured env capturing step s

theorem Execution.finished (env : Env σ) (v : Verdict) (world : World σ) (e : Execution σ) :
    Finished env e.step v.stop (e.noted env v.entries world) (e.measured env v world) :=
  markFinish_finished env e.step v.stop (e.noted env v.entries world)

/-- What no part of a run undoes. -/
structure Grows (s t : State σ) : Prop where
  startedAt : t.result.startedAt = s.result.startedAt
  entries : s.result.log.entries <+: t.result.log.entries
  world : s.world.Timely → s.world.Before t.world

theorem Grows.refl (s : State σ) : Grows s s :=
  ⟨rfl, List.prefix_rfl, World.Timely.before_self⟩

theorem Grows.trans {s t u : State σ} (first : Grows s t) (second : Grows t u) : Grows s u where
  startedAt := second.startedAt.trans first.startedAt
  entries := first.entries.trans second.entries
  world timely :=
    have before := first.world timely
    before.trans (second.world before.timely)

/-- What no phase of a step undoes. Only the end of a step moves on to another index. -/
structure Follows (s t : State σ) : Prop extends Grows s t where
  next : t.next = s.next

theorem Follows.refl (s : State σ) : Follows s s := ⟨.refl s, rfl⟩

theorem Follows.trans {s t u : State σ} (first : Follows s t) (second : Follows t u) :
    Follows s u :=
  ⟨first.toGrows.trans second.toGrows, second.next.trans first.next⟩

theorem follows_note (env : Env σ) (name message : String) (s : State σ) :
    Follows s (s.note env name message) :=
  ⟨⟨rfl, List.prefix_append _ _, World.Timely.before_self⟩, rfl⟩

theorem follows_noted (env : Env σ) (e : Execution σ) {exit : Exit} {world : World σ}
    (answered : e.activityEnd env = (exit, world)) (entries : List String) :
    Follows e.start (e.noted env entries world) := by
  have hactivity := (activity env e.step).before_run env.turns (w := e.start.world)
  unfold Execution.activityEnd at answered
  simp only [answered] at hactivity
  simp only [Execution.noted, noteAll_eq, markStart_eq]
  exact ⟨⟨rfl, List.prefix_append _ _, hactivity⟩, rfl⟩

theorem Finished.follows {env : Env σ} {step : Step} {stop : Bool} {s : State σ}
    {answer : Bool × State σ} (h : Finished env step stop s answer) : Follows s answer.2 := by
  cases h with
  | ignored => exact .refl s
  | measured => exact ⟨⟨rfl, List.prefix_rfl, World.Timely.before_self⟩, rfl⟩
  | refused => exact ⟨⟨rfl, List.prefix_append _ _, World.Timely.before_self⟩, rfl⟩

theorem Captured.follows {env : Env σ} {capturing : Bool} {step : Step} {s : State σ}
    {answer : Part Bool × State σ} (h : Captured env capturing step s answer) :
    Follows s answer.2 := by
  cases h with
  | unasked => exact .refl s
  | saved _ passing | cut _ passing => exact ⟨⟨rfl, List.prefix_rfl, passing⟩, rfl⟩
  | refused _ passing => exact ⟨⟨rfl, List.prefix_append _ _, passing⟩, rfl⟩

/-- Finish marker and screenshot follow the activity. -/
theorem follows_marked {env : Env σ} {capturing : Bool} {e : Execution σ} {v : Verdict}
    {world : World σ} {part : Part Bool} {s : State σ}
    (captured : markCapture env capturing e.step (e.measured env v world).2 = (part, s)) :
    Follows (e.noted env v.entries world) s :=
  (e.finished env v world).follows.trans (captured_of_eq captured).follows

/-- All phases up to the screenshot together. -/
theorem follows_captured {env : Env σ} {capturing : Bool} {e : Execution σ} {v : Verdict}
    {world : World σ} {part : Part Bool} {s : State σ}
    (answered : e.activityEnd env = (.verdict v, world))
    (captured : markCapture env capturing e.step (e.measured env v world).2 = (part, s)) :
    Follows e.start s :=
  (follows_noted env e answered v.entries).trans (follows_marked captured)

/-- An execution leaves the index, the start of the run and what is in the log as they are. -/
theorem Executes.follows {env : Env σ} {capturing : Bool} {e : Execution σ} {ending : StepEnd}
    {t : State σ} (h : Executes env capturing e ending t) : Follows e.start t := by
  cases h with
  | ended v world unsaved s answered captured _ state_eq =>
      have hfollows := follows_captured answered captured
      subst state_eq
      exact ⟨⟨hfollows.startedAt, hfollows.entries, hfollows.world⟩, hfollows.next⟩
  | cutInCapture v world answered captured => exact follows_captured answered captured
  | cutInActivity entries world answered _ state_eq =>
      exact state_eq ▸ follows_noted env e answered entries
  | unfinished world answered _ state_eq =>
      have hnoted := follows_noted env e answered []
      simp only [Execution.noted, noteAll_eq, List.map_nil, List.append_nil] at hnoted
      exact state_eq ▸ hnoted

theorem Course.grows {env : Env σ} {capturing : Bool} {steps : List Step} {s u : State σ}
    {es : List (Execution σ)} {reason : End} (h : Course env capturing steps s es reason u) :
    Grows s u := by
  induction h with
  | finished | bounded => exact .refl _
  | cancelled => exact (follows_note env _ _ _).toGrows
  | next start _ _ executed _ ih =>
      subst start
      exact (Executes.of_executed executed).follows.toGrows.trans
        ⟨ih.startedAt, ih.entries, ih.world⟩
  | stopped start _ _ executed | cut start _ _ executed | waiting start _ executed =>
      subst start
      exact (Executes.of_executed executed).follows.toGrows

/-- A run before its first step: nothing is recorded, measured or in the log. -/
structure Fresh (env : Env σ) (world : World σ) (s : State σ) : Prop where
  next : s.next = 0
  pending : s.pending = none
  startedAt : s.result.startedAt = some (env.base.add world.clock)
  outcomes : s.result.outcomes = []
  samples : s.result.samples = []
  log : s.result.log = {}
  timely : s.world.Timely
  clock : world.clock ≤ s.world.clock

private theorem throttle_eq (env : Env σ) (s : State σ) (h : s.world.Timely) :
    ∃ world, s.world.Before world ∧ throttle env s = { s with world } := by
  unfold throttle
  simp only
  split
  · exact ⟨_, (env.session.throttle _ _ _).before_runAlone h, rfl⟩
  · exact ⟨_, h.before_self, rfl⟩

private theorem prepareCapture_eq (startedAt : DateTime) (env : Env σ) (capturing : Bool)
    (s : State σ) :
    ∃ files directory artifacts, prepareCapture startedAt env capturing s =
      { s with files, directory, result := { s.result with artifacts } } := by
  cases capturing with
  | false => exact ⟨_, _, _, rfl⟩
  | true =>
      simp only [prepareCapture, openDirectory, if_true]
      generalize s.files.makeDirectories _ = made
      obtain ⟨result, files⟩ := made
      cases result with
      | ok => exact ⟨_, _, _, rfl⟩
      | error e => exact ⟨_, _, _, rfl⟩

/-- The deadline of a run lies ahead of the clock from which it is counted. -/
theorem le_of_deadlineFrom {settings : RunSettings} {clock : Nat} :
    ∀ time ∈ deadlineFrom settings clock, clock ≤ time := by
  intro time htime
  unfold deadlineFrom at htime
  split at htime
  · split at htime
    · cases htime
      exact Nat.le_add_right clock _
    · cases htime
  · cases htime

theorem opening_fresh (env : Env σ) (order : Order) (world : World σ) (files : FileTree) :
    Fresh env world (opening env order world files) := by
  have hstart : World.Timely { world with
      cancelled := false, deadline := none
      cancelAt := world.cancelAt.filter (world.clock ≤ ·) } := by
    refine ⟨fun _ impossible => (by cases impossible), ?_⟩
    intro _ time htime
    simpa using (Option.filter_eq_some_iff.mp htime).2
  unfold opening
  simp only
  obtain ⟨passed, hpassed, hthrottle⟩ := throttle_eq env ⟨_, files, none, none,
    { tag := order.tag, startedAt := some (env.base.add world.clock) }, 0⟩ hstart
  rw [hthrottle]
  obtain ⟨files', directory, artifacts, hprepare⟩ := prepareCapture_eq
    (env.base.add world.clock) env order.capturing ⟨passed, files, none, none,
      { tag := order.tag, startedAt := some (env.base.add world.clock) }, 0⟩
  rw [hprepare]
  exact ⟨rfl, rfl, rfl, rfl, rfl, rfl, ⟨le_of_deadlineFrom, hpassed.timely.cancel⟩, hpassed.clock⟩

theorem recordCut_eq (env : Env σ) (steps : List Step) (s : State σ) :
    ∃ log outcomes, recordCut env steps s =
      { s with result := { s.result with log, outcomes } } := by
  unfold recordCut
  split <;> exact ⟨_, _, rfl⟩

/-- The end of a run touches what is due, the log and the outcomes, and notes the time. -/
theorem closing_eq (env : Env σ) (steps : List Step) (reason : End) (s : State σ) :
    ∃ log outcomes, closing env steps reason s =
      { s with
        world := { s.world with deadline := none, cancelAt := none }
        result := { s.result with log, outcomes, finishedAt := some (s.now env) } } := by
  obtain ⟨log, outcomes, hcut⟩ := recordCut_eq env steps s
  unfold closing
  simp only
  split
  · refine ⟨log, outcomes, ?_⟩
    rw [hcut]
    rfl
  · exact ⟨_, _, rfl⟩

/-- The end of a run that is not cut leaves the log and the outcomes as well. -/
theorem closing_of_uncut (env : Env σ) (steps : List Step) {reason : End} (uncut : reason ≠ .cut)
    (s : State σ) :
    closing env steps reason s =
      { s with
        world := { s.world with deadline := none, cancelAt := none }
        result := { s.result with finishedAt := some (s.now env) } } := by
  simp only [closing, uncut, if_false]

end BrowserSteps.Run
