import BrowserSteps.Proofs.Run.Completion
import BrowserSteps.Proofs.Run.Interruption
import BrowserSteps.Proofs.Session.Orderly
import BrowserSteps.Proofs.Wait.Lateness

/-!
What a cancellation does to a run. No step begins once it has been requested. The step that is under
way comes to its end, is recorded and is the last one: each of its waits has at most one query left,
and if a step would have been next, the log ends with an entry under its name.
-/

namespace BrowserSteps.Run

variable {σ τ : Type} {env : Env σ} {capturing : Bool} {steps : List Step}

section

variable {s u : State σ} {es : List (Execution σ)} {reason : End}

/-- No step begins in a run that has been cancelled. -/
theorem Course.running (h : Course env capturing steps s es reason u) :
    ∀ e ∈ es, e.start.world.cancelled = false := by
  induction h with
  | next start _ running _ _ ih =>
      subst start
      exact List.forall_mem_cons.mpr ⟨running, ih⟩
  | stopped start _ running | cut start _ running =>
      subst start
      exact List.forall_mem_singleton.mpr running
  | finished | cancelled | waiting | bounded => exact List.forall_mem_nil _

/-- Each step begins in a world to which that of the course leads. -/
theorem Course.before_start (h : Course env capturing steps s es reason u)
    (timely : s.world.Timely) : ∀ e ∈ es, s.world.Before e.start.world := by
  induction h with
  | next start _ _ executed _ ih =>
      subst start
      have hbefore := (Executes.of_executed executed).follows.world timely
      refine List.forall_mem_cons.mpr ⟨timely.before_self, fun e member => ?_⟩
      exact hbefore.trans (ih hbefore.timely e member)
  | stopped start | cut start =>
      subst start
      exact List.forall_mem_singleton.mpr timely.before_self
  | finished | cancelled | waiting | bounded => exact List.forall_mem_nil _

/-- No step begins after the instant of a cancellation, and one that goes on beyond it has heard of
it when it ends. -/
theorem Course.heard_of_due (h : Course env capturing steps s es reason u)
    (timely : s.world.Timely) {time : Nat} (due : time ∈ s.world.cancelAt) :
    ∀ e ∈ es, e.start.world.clock ≤ time ∧
      (time < (e.executed env capturing).2.world.clock →
        (e.executed env capturing).2.world.cancelled = true) := by
  intro e member
  have hbefore := h.before_start timely e member
  have executes : Executes env capturing e (e.executed env capturing).1
      (e.executed env capturing).2 := .of_executed rfl
  have hpassed := executes.follows.world hbefore.timely
  have still_due : time ∈ e.start.world.cancelAt := hbefore.cancelAt ▸ due
  refine ⟨hbefore.timely.cancel (h.running e member) time still_due, fun past => ?_⟩
  rw [← Bool.not_eq_false]
  intro unheard
  have hlater := hpassed.timely.cancel unheard time (hpassed.cancelAt ▸ still_due)
  exact absurd hlater (Nat.not_le.mpr past)

end

/-- After its first execution a run goes on from where that leads, or executes nothing more. -/
theorem executions_eq_cons {bound : Nat} {s : State σ} {e : Execution σ} {rest : List (Execution σ)}
    (h : executions env capturing steps bound s = e :: rest) :
    (∃ left jump t, bound = left + 1 ∧ e.executed env capturing = (.goOn jump, t) ∧
        rest = executions env capturing steps left (advance jump t) ∧
        loop env capturing steps bound s = loop env capturing steps left (advance jump t)) ∨
      rest = [] ∧ ∀ jump, (e.executed env capturing).1 ≠ .goOn jump := by
  cases bound with
  | zero => cases h
  | succ left =>
      unfold executions at h
      rw [loop]
      cases hstep : steps[s.next]? with
      | none => simp [hstep] at h
      | some step =>
          cases hcancelled : s.world.cancelled with
          | true => simp [hstep, hcancelled] at h
          | false =>
              simp only [hstep, hcancelled, Bool.false_eq_true, if_false] at h ⊢
              cases hexecute : execute env capturing step s with
              | mk ending t =>
                  simp only [hexecute] at h
                  cases ending with
                  | goOn jump =>
                      cases h
                      exact .inl ⟨left, jump, t, rfl, hexecute, rfl, rfl⟩
                  | stop | cut =>
                      cases h
                      exact .inr ⟨rfl, fun jump => by simp [Execution.executed, hexecute]⟩
                  | unfinished => cases h

/-- After an execution that goes on, the run goes on from where it led, with the executions that it
may still make. -/
theorem resumes {bound k : Nat} {s t : State σ} {e : Execution σ} {jump : Option Int}
    (at_k : (executions env capturing steps bound s)[k]? = some e)
    (executed : e.executed env capturing = (.goOn jump, t)) :
    ∃ left, bound = k + 1 + left ∧
      (executions env capturing steps bound s).drop (k + 1) =
        executions env capturing steps left (advance jump t) ∧
      loop env capturing steps bound s = loop env capturing steps left (advance jump t) := by
  induction k generalizing bound s with
  | zero =>
      obtain ⟨rest, hes⟩ := List.head?_eq_some_iff.mp (List.head?_eq_getElem?.trans at_k)
      rcases executions_eq_cons hes with ⟨left, _, _, rfl, same, rfl, honward⟩ | ⟨-, stays⟩
      · cases executed.symm.trans same
        exact ⟨left, Nat.add_comm _ _, by rw [hes]; rfl, honward⟩
      · exact absurd (congrArg Prod.fst executed) (stays jump)
  | succ k ih =>
      cases hes : executions env capturing steps bound s with
      | nil => simp [hes] at at_k
      | cons first rest =>
          rw [hes, List.getElem?_cons_succ] at at_k
          rcases executions_eq_cons hes with ⟨less, _, _, rfl, -, rfl, hless⟩ | ⟨rfl, -⟩
          · obtain ⟨left, rfl, hrest, honward⟩ := ih at_k
            exact ⟨left, by omega, hrest, hless.trans honward⟩
          · cases at_k

/-- A run that has been cancelled executes nothing more. -/
theorem executions_of_cancelled {s : State σ} (cancelled : s.world.cancelled = true) (bound : Nat) :
    executions env capturing steps bound s = [] := by
  cases bound with
  | zero => rfl
  | succ bound =>
      unfold executions
      split
      · rfl
      · rw [if_pos cancelled]

theorem loop_of_cancelled {s : State σ} (cancelled : s.world.cancelled = true) (bound : Nat) :
    loop env capturing steps (bound + 1) s =
      match steps[s.next]? with
      | none => (.finished, s)
      | some step => (.cancelled, s.note env step.name Handler.cancelled) := by
  unfold loop
  cases steps[s.next]? with
  | none => rfl
  | some step => exact if_pos cancelled

theorem cancelAt_opening (env : Env σ) (order : Order) (world : World σ) (files : FileTree) :
    (opening env order world files).world.cancelAt =
      world.cancelAt.filter (world.clock ≤ ·) := by
  simp only [opening, world_prepareCapture, throttle]
  split
  · exact ((env.session.throttle env.settings.latency env.settings.download
      env.settings.upload).before_runAlone (timely_begun world)).cancelAt
  · rfl

/-- The activity of a step that came to its end did so with a verdict, unless it was cut. -/
theorem answered_of_uncut {e : Execution σ} (uncut : (e.executed env capturing).1 ≠ .cut)
    (complete : (e.executed env capturing).1 ≠ .unfinished) :
    ∃ v world, e.activityEnd env = (.verdict v, world) := by
  cases hexecuted : e.executed env capturing with
  | mk ending t =>
      rw [hexecuted] at uncut complete
      cases Executes.of_executed hexecuted with
      | ended v world _ _ answered | cutInCapture v world answered => exact ⟨v, world, answered⟩
      | cutInActivity _ _ _ ending_eq => exact absurd ending_eq uncut
      | unfinished _ _ ending_eq => exact absurd ending_eq complete

/-- The activity of a step does the same with its queries noted, and if it comes to a verdict, each of
its waits has at most one late query. -/
theorem noted_of_answered {scale : TimeScale τ} {session : Session σ} {settings : RunSettings}
    {base : DateTime} {turns : Nat} {e : Execution σ} {v : Verdict} {later : World σ}
    (answered : e.activityEnd (.full scale session settings base turns) = (.verdict v, later)) :
    let noted := (watchedActivity scale session settings base turns e.step).run turns
      e.start.world.watched
    e.activityEnd (.full scale session settings base turns) =
        (noted.1, noted.2.map Watched.shared) ∧
      ∀ i, lateQueries i noted.2 ≤ 1 := by
  intro noted
  have hwatches := watches_watchedActivity scale session settings base turns e.step
  have hsame : e.activityEnd (.full scale session settings base turns) =
      (noted.1, noted.2.map Watched.shared) := hwatches.shadows.run_eq turns e.start.world.watched
  refine ⟨hsame, fun i => ?_⟩
  rw [answered] at hsame
  exact hwatches.lateQueries_le_one (Prod.ext (congrArg Prod.fst hsame).symm rfl) i

/-- What becomes of a run after an execution during which it was cancelled, if it may still make
executions: a step that stops the run stops it, one that leads past the steps finishes it, and
otherwise the log ends with an entry under the name of the step that would have been next. -/
def Execution.Ends (env : Env σ) (capturing : Bool) (steps : List Step) (e : Execution σ)
    (ended : End × State σ) : Prop :=
  match e.executed env capturing with
  | (.stop, _) => ended.1 = .stopped
  | (.goOn jump, t) =>
    match steps[(advance jump t).next]? with
    | none => ended.1 = .finished
    | some step =>
      ended.1 = .cancelled ∧ ended.2.result.log.entries.getLast? =
        some (Log.entry (ended.2.now env) step.name Handler.cancelled)
  | (.cut, _) | (.unfinished, _) => False

/-- A run without a timeout is not cut. -/
theorem run_uncut (unlimited : deadlineFrom env.settings 0 = none) (steps : List Step) (order : Order)
    (bound : Nat) (world : World σ) (files : FileTree) :
    (run env steps order bound world files).1 ≠ .cut := by
  intro cut
  obtain ⟨u, hcourse, -⟩ := run_course env steps order bound world files
  have hbears := hcourse.bearsOut (opening_fresh env order world files).timely
  rw [cut, deadline_opening, deadlineFrom_eq, unlimited] at hbears
  exact absurd hbears.2 (by simp)

theorem run_of_loop (env : Env σ) (steps : List Step) (order : Order) (bound : Nat)
    (world : World σ) (files : FileTree) {reason : End} {u : State σ}
    (h : loop env order.capturing steps bound (opening env order world files) = (reason, u)) :
    run env steps order bound world files = (reason, closing env steps reason u) := by
  simp only [run, h]

/-- An execution that goes on after a cancellation is the last one. -/
theorem ends_of_goOn {order : Order} {bound k : Nat} {world : World σ} {files : FileTree}
    {e : Execution σ} {jump : Option Int} {t : State σ}
    (at_k : (history env steps order bound world files)[k]? = some e)
    (executed : e.executed env order.capturing = (.goOn jump, t))
    (cancelled : t.world.cancelled = true) :
    k + 1 = (history env steps order bound world files).length ∧
      (k + 1 < bound → e.Ends env order.capturing steps (run env steps order bound world files)) := by
  -- What is left of the run begins in a cancelled world: it executes nothing, and if it has a pass
  -- left, that pass ends it.
  obtain ⟨left, hbound, hrest, honward⟩ := resumes at_k executed
  have hcancelled : (advance jump t).world.cancelled = true := cancelled
  have hnothing := hrest.trans (executions_of_cancelled hcancelled left)
  constructor
  · have hlast := List.drop_eq_nil_iff.mp hnothing
    have hinside := (List.getElem?_eq_some_iff.mp at_k).1
    exact Nat.le_antisymm hinside hlast
  · intro more
    obtain ⟨left, rfl⟩ : ∃ n, left = n + 1 := ⟨left - 1, by omega⟩
    rw [loop_of_cancelled hcancelled left] at honward
    unfold Execution.Ends
    rw [executed]
    simp only
    cases hstep : steps[(advance jump t).next]? with
    | none =>
        simp only [hstep] at honward ⊢
        rw [run_of_loop env steps order bound world files honward]
    | some step =>
        simp only [hstep] at honward ⊢
        rw [run_of_loop env steps order bound world files honward]
        simp [closing, State.note, RunResult.note, State.now, advance]

/-- A run without a timeout that is cancelled. No step begins once the cancellation has been
requested, and one that is due during a step has been requested when the step ends. Whatever the
turns of its waits, a step makes the same of the world as with its queries noted, and each of its
waits has at most one late query. Each step has one outcome; a step during which the run was
cancelled is the last one, and the run ends as it says. With turns enough, and queries that give the
lock back, a run is unfinished only if it has made all the executions that it may. -/
theorem run_cancelled (scale : TimeScale τ) (session : Session σ) (settings : RunSettings)
    (base : DateTime) (steps : List Step) (order : Order) (bound : Nat) (world : World σ)
    (files : FileTree) (unlimited : deadlineFrom settings 0 = none) :
    ∃ enough, ∀ turns,
      let env := Env.full scale session settings base turns
      let es := history env steps order bound world files
      let ended := run env steps order bound world files
      let os := ended.2.result.outcomes
      (∀ e ∈ es, e.start.world.cancelled = false ∧
        ∀ time ∈ world.cancelAt, world.clock ≤ time → e.start.world.clock ≤ time ∧
          (time < (e.executed env order.capturing).2.world.clock →
            (e.executed env order.capturing).2.world.cancelled = true)) ∧
      (∀ e ∈ es,
        let noted := (watchedActivity scale session settings base turns e.step).run turns
          e.start.world.watched
        e.activityEnd env = (noted.1, noted.2.map Watched.shared) ∧
          ∀ i, lateQueries i noted.2 ≤ 1) ∧
      List.Forall₂ (Recorded env order.capturing) es os ∧
      (∀ k e, es[k]? = some e → (e.executed env order.capturing).2.world.cancelled = true →
        k + 1 = es.length ∧ k + 1 = os.length ∧
          (k + 1 < bound → e.Ends env order.capturing steps ended)) ∧
      ((∀ kind value, (session.find kind value).Orderly false) → enough ≤ turns →
        ended.1 = .unfinished → es.length = bound) := by
  obtain ⟨enough, hcompletes⟩ : ∃ enough,
      (∀ kind value, (session.find kind value).Orderly false) → ∀ turns ≥ enough,
        (run (.full scale session settings base turns) steps order bound world files).1 =
          .unfinished →
        (history (.full scale session settings base turns) steps order bound world files).length =
          bound := by
    by_cases orderly : ∀ kind value, (session.find kind value).Orderly false
    · obtain ⟨enough, hcompletes⟩ := run_completes (Env.full scale session settings base 0)
        (fun step (_ : step ∈ steps) => Handler.orderly_activity scale orderly settings base 0 step)
        order bound world files
      exact ⟨enough, fun _ => hcompletes⟩
    · exact ⟨0, fun impossible => absurd impossible orderly⟩
  refine ⟨enough, fun turns => ?_⟩
  intro env es ended os
  obtain ⟨u, hcourse, hended⟩ := run_course env steps order bound world files
  have hfresh := opening_fresh env order world files
  have hrecorded := run_recorded env steps order bound world files
  have uncut : ended.1 ≠ .cut := run_uncut unlimited steps order bound world files
  have hending {k : Nat} {e : Execution σ} (at_k : es[k]? = some e) :
      (∃ jump, (e.executed env order.capturing).1 = .goOn jump) ∨
        (e.executed env order.capturing).1 = .stop ∧ k + 1 = es.length ∧ ended.1 = .stopped := by
    rcases hcourse.last_of_executed at_k with goes | ⟨last, ⟨stop, reason⟩ | ⟨-, reason⟩⟩
    · exact .inl goes
    · exact .inr ⟨stop, last, reason⟩
    · exact absurd reason uncut
  refine ⟨?_, ?_, hrecorded, ?_, fun orderly hturns => hcompletes orderly turns hturns⟩
  · intro e member
    refine ⟨hcourse.running e member, fun time due ahead => ?_⟩
    have still_due : time ∈ (opening env order world files).world.cancelAt := by
      rw [cancelAt_opening, Option.mem_filter_iff]
      exact ⟨due, decide_eq_true ahead⟩
    exact hcourse.heard_of_due hfresh.timely still_due e member
  · intro e member
    obtain ⟨k, at_k⟩ := List.mem_iff_getElem?.mp member
    have complete : (e.executed env order.capturing).1 ≠ .cut ∧
        (e.executed env order.capturing).1 ≠ .unfinished := by
      rcases hending at_k with ⟨jump, goes⟩ | ⟨stops, -⟩
      · simp [goes]
      · simp [stops]
    obtain ⟨v, later, answered⟩ := answered_of_uncut complete.1 complete.2
    exact noted_of_answered answered
  · intro k e at_k cancelled
    have hlength : es.length = os.length := hrecorded.length_eq
    rcases hending at_k with ⟨jump, goes⟩ | ⟨stops, last, reason⟩
    · obtain ⟨t, executed⟩ : ∃ t, e.executed env order.capturing = (.goOn jump, t) :=
        ⟨_, Prod.ext goes rfl⟩
      rw [executed] at cancelled
      obtain ⟨last, ends⟩ := ends_of_goOn at_k executed cancelled
      exact ⟨last, last.trans hlength, ends⟩
    · refine ⟨last, last.trans hlength, fun _ => ?_⟩
      obtain ⟨t, executed⟩ : ∃ t, e.executed env order.capturing = (.stop, t) :=
        ⟨_, Prod.ext stops rfl⟩
      rw [Execution.Ends, executed]
      exact reason

/-- A session with a lock whose queries take thirty milliseconds and find nothing. -/
def searchingSession : Session Unit :=
  { cancellingSession with find := fun _ _ => .locked (.pause 30000 (.done (.ok none))) }

/-- A wait for two elements, and a step after it. -/
def searchingSteps : List Step :=
  [{ name := "a", action := .waitAll, selectorKind := .id, selectorValue := "x,y",
     timeoutSeconds := 5 }, { name := "b", action := .noop }]

theorem run_cancelled_while_searching :
    let env := Env.full .exact searchingSession {} ⟨0⟩ 100
    let world : World Unit := { shared := (), cancelAt := some 100000 }
    let order : Order := {}
    let es := history env searchingSteps order 3 world {}
    let ended := run env searchingSteps order 3 world {}
    deadlineFrom env.settings 0 = none ∧ ∃ e, es[0]? = some e ∧
      (e.executed env order.capturing).2.world.cancelled = true ∧ es.length = 1 ∧
      ended.2.result.outcomes.length = 1 ∧ e.Ends env order.capturing searchingSteps ended := by
  intro env world order es ended
  have unlimited : deadlineFrom env.settings 0 = none := by rfl
  have heard : es[0]?.map (fun e => (e.executed env order.capturing).2.world.cancelled) =
      some true := by decide +kernel
  obtain ⟨e, at_0, cancelled⟩ := Option.map_eq_some_iff.mp heard
  obtain ⟨enough, h⟩ := run_cancelled .exact searchingSession {} ⟨0⟩ searchingSteps order 3 world {}
    unlimited
  obtain ⟨last, one, ends⟩ := (h 100).2.2.2.1 0 e at_0 cancelled
  refine ⟨unlimited, e, at_0, cancelled, last.symm, ?_, ends (by decide)⟩
  simpa only [ended, env] using one.symm

end BrowserSteps.Run
