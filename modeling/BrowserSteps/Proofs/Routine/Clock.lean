import BrowserSteps.Proofs.Routine.Turns
import BrowserSteps.Run.Activity

/-!
Time only goes forward. A world is timely if nothing that is still due lies in its past; from a
timely world every routine, alone or among several, and every activity leads to a timely world
that is no earlier and has the same deadline. Whatever is cut is cut at the deadline.
-/

namespace BrowserSteps

namespace World

variable {σ : Type}

/-- Nothing that is due lies in the past: neither the deadline nor a cancellation that has not
been requested yet. -/
structure Timely (w : World σ) : Prop where
  deadline : ∀ time ∈ w.deadline, w.clock ≤ time
  cancel : w.cancelled = false → ∀ time ∈ w.cancelAt, w.clock ≤ time

/-- What holds between two worlds when routines lead from one to the other. What is due stays due,
and a cancellation is not taken back. -/
structure Before (w later : World σ) : Prop where
  clock : w.clock ≤ later.clock
  deadline : later.deadline = w.deadline
  cancelAt : later.cancelAt = w.cancelAt
  cancelled : w.cancelled = true → later.cancelled = true
  timely : later.Timely

theorem Timely.before_self {w : World σ} (h : w.Timely) : w.Before w :=
  ⟨Nat.le_refl _, rfl, rfl, id, h⟩

theorem Before.trans {w later last : World σ} (first : w.Before later)
    (second : later.Before last) : w.Before last :=
  ⟨Nat.le_trans first.clock second.clock, second.deadline.trans first.deadline,
    second.cancelAt.trans first.cancelAt, second.cancelled ∘ first.cancelled, second.timely⟩

theorem cancelled_apply {w : World σ} (change : Change σ) (h : w.cancelled = true) :
    (w.apply change).cancelled = true := by
  simp only [apply, h, Bool.or_true]

theorem cancelled_passTo {w : World σ} (time : Nat) (h : w.cancelled = true) :
    (w.passTo time).cancelled = true := by
  simp only [passTo, h, Bool.true_or]

theorem Timely.before_apply {w : World σ} (h : w.Timely) (change : Change σ) :
    w.Before (w.apply change) := by
  refine ⟨Nat.le_refl _, rfl, rfl, cancelled_apply change, ⟨h.deadline, ?_⟩⟩
  intro hrunning
  simp only [apply, Bool.or_eq_false_iff] at hrunning
  exact h.cancel hrunning.2

/-- A cancellation that is due no later than the clock has been requested. -/
theorem clock_le_of_passTo_running {w : World σ} {time : Nat}
    (hrunning : (w.passTo time).cancelled = false) : ∀ due ∈ w.cancelAt, time ≤ due := by
  intro due hdue
  simp only [Option.mem_def] at hdue
  simp only [passTo, Bool.or_eq_false_iff, hdue, Option.any_some, decide_eq_false_iff_not,
    Nat.not_le] at hrunning
  exact Nat.le_of_lt hrunning.2

/-- A wait for an instant to come ends there, or before it at the deadline. -/
theorem Timely.before_wait {w : World σ} (h : w.Timely) {time : Nat} (htime : w.clock ≤ time) :
    w.Before (w.wait time).2 := by
  unfold wait cutBy?
  split
  next cut hcut =>
    simp only [Option.filter_eq_some_iff, decide_eq_true_eq] at hcut
    refine ⟨h.deadline cut hcut.1, rfl, rfl, cancelled_passTo cut,
      ⟨?_, clock_le_of_passTo_running⟩⟩
    intro due hdue
    have hsame : cut = due := Option.some.inj (hcut.1.symm.trans hdue)
    exact Nat.le_of_eq hsame
  next hcut =>
    refine ⟨htime, rfl, rfl, cancelled_passTo time, ⟨?_, clock_le_of_passTo_running⟩⟩
    intro due hdue
    simp only [deadline_passTo, Option.mem_def] at hdue
    simp only [hdue, Option.filter_some, ite_eq_right_iff, reduceCtorEq, decide_eq_true_eq,
      imp_false] at hcut
    simp only [clock_passTo]
    omega

theorem eq_passTo_of_wait {w later : World σ} {time : Nat}
    (hreached : w.wait time = (true, later)) : later = w.passTo time := by
  unfold wait at hreached
  split at hreached
  · cases hreached
  · cases hreached
    rfl

/-- Whether or not it reaches its instant, a wait lets time pass and does nothing else. -/
theorem wait_eq_passTo (w : World σ) (time : Nat) : ∃ last, (w.wait time).2 = w.passTo last := by
  unfold wait
  split
  next cut _ => exact ⟨cut, rfl⟩
  next => exact ⟨time, rfl⟩

theorem clock_of_wait {w later : World σ} {time : Nat}
    (hreached : w.wait time = (true, later)) : later.clock = time := by
  rw [eq_passTo_of_wait hreached, clock_passTo]

/-- What does not reach its instant ends at the deadline. -/
theorem deadline_of_wait {w later : World σ} {time : Nat}
    (hcut : w.wait time = (false, later)) : later.deadline = some later.clock := by
  unfold wait cutBy? at hcut
  split at hcut
  next cut hfilter =>
    cases hcut
    exact (Option.filter_eq_some_iff.mp hfilter).1
  next => cases hcut

end World

namespace Routine

variable {σ α : Type}

theorem before_runAlone (r : Routine σ α) {w : World σ} (h : w.Timely) :
    w.Before (r.runAlone w).2 := by
  induction r generalizing w with
  | done value => exact h.before_self
  | act change next ih =>
      have hchange := h.before_apply (change w)
      exact hchange.trans (ih w hchange.timely)
  | pause micros next ih =>
      cases micros with
      | zero => exact ih h
      | succ micros =>
          have hwait := h.before_wait (Nat.le_add_right w.clock (micros + 1))
          cases hreached : w.wait (w.clock + (micros + 1)) with
          | mk reached later =>
              simp only [hreached] at hwait
              simp only [runAlone, hreached]
              cases reached with
              | true => exact hwait.trans (ih hwait.timely)
              | false => exact hwait
  | acquire next ih => exact ih h
  | release next ih => exact ih h

/-- A routine that comes to an answer has not gone back in time. -/
theorem clock_le_of_runAlone (r : Routine σ α) {w later : World σ} {answer : α}
    (answered : r.runAlone w = (some answer, later)) : w.clock ≤ later.clock := by
  induction r generalizing w with
  | done value =>
      cases answered
      exact Nat.le_refl _
  | act change next ih => exact ih w (w := w.apply (change w)) answered
  | pause micros next ih =>
      cases micros with
      | zero => exact ih answered
      | succ micros =>
          simp only [runAlone] at answered
          split at answered
          next after hwait =>
            have hclock := World.clock_of_wait hwait
            have hlater := ih answered
            omega
          next => cases answered
  | acquire next ih => exact ih answered
  | release next ih => exact ih answered

/-- A routine without an answer was cut at the deadline. -/
theorem deadline_of_runAlone (r : Routine σ α) {w later : World σ}
    (hcut : r.runAlone w = (none, later)) : later.deadline = some later.clock := by
  induction r generalizing w with
  | done value => cases hcut
  | act change next ih => exact ih w hcut
  | pause micros next ih =>
      cases micros with
      | zero => exact ih hcut
      | succ micros =>
          simp only [runAlone] at hcut
          split at hcut
          next => exact ih hcut
          next after hwait =>
            cases hcut
            exact World.deadline_of_wait hwait
  | acquire next ih => exact ih hcut
  | release next ih => exact ih hcut

/-- No time passes while a routine has its turn among several. -/
theorem before_burst (r : Routine σ α) {w : World σ} (h : w.Timely) (lock : Lock)
    (woken : List Nat) :
    w.Before (r.burst w lock woken).world ∧ (r.burst w lock woken).world.clock = w.clock := by
  induction r generalizing w lock woken with
  | done value => exact ⟨h.before_self, rfl⟩
  | act change next ih =>
      have hchange := h.before_apply (change w)
      obtain ⟨hbefore, hclock⟩ := ih w hchange.timely lock woken
      exact ⟨hchange.trans hbefore, hclock⟩
  | pause micros next ih => exact ⟨h.before_self, rfl⟩
  | acquire next ih =>
      simp only [burst]
      split
      · exact ⟨h.before_self, rfl⟩
      · exact ih h _ _
  | release next ih =>
      simp only [burst]
      split
      · exact ih h _ _
      · exact ih h _ _

namespace Group

/-- Nobody pauses up to an instant in the past. -/
def PausesAhead (clock : Nat) (members : List (Member σ α)) : Prop :=
  ∀ wake order routine, Member.paused wake order routine ∈ members → clock ≤ wake

theorem PausesAhead.wakeAll {clock : Nat} {members : List (Member σ α)}
    (h : PausesAhead clock members) (waking : List Nat) :
    PausesAhead clock (waking.foldl wake members) := by
  intro time order routine member
  obtain ⟨i, at_i⟩ := List.mem_iff_getElem?.mp member
  rw [getElem?_wakeAll] at at_i
  obtain ⟨m, old_at_i, hm⟩ := Option.map_eq_some_iff.mp at_i
  split at hm
  · cases m <;> cases hm
  · obtain rfl : m = .paused time order routine := hm
    exact h time order routine (List.mem_of_getElem? old_at_i)

theorem PausesAhead.le_nextWake {clock time : Nat} {members : List (Member σ α)}
    (h : PausesAhead clock members) (hnext : nextWake? members = some time) : clock ≤ time := by
  obtain ⟨i, order, routine, paused⟩ := paused_of_nextWake hnext
  exact h time order routine (List.mem_of_getElem? paused)

/-- A turn takes no time, and a pause that begins in it ends after it. -/
theorem turn_ahead {g : Group σ α} (h : g.world.Timely)
    (ahead : PausesAhead g.world.clock g.members) (i : Nat) (routine : Routine σ α)
    (queue : List Nat) :
    g.world.Before (g.turn i routine queue).world ∧
      PausesAhead (g.turn i routine queue).world.clock (g.turn i routine queue).members := by
  obtain ⟨hbefore, hclock⟩ := routine.before_burst h g.lock []
  rw [world_turn, members_turn, hclock]
  refine ⟨hbefore, fun time order next member => ?_⟩
  rcases List.mem_or_eq_of_mem_set member with old | own
  · exact ahead.wakeAll _ time order next old
  · exact Member.le_of_ofHalt own.symm

/-- The next instant at which somebody wakes is the earliest at which a pause ends. -/
theorem nextWake_ahead {members : List (Member σ α)} {time : Nat}
    (hnext : nextWake? members = some time) : PausesAhead time members := by
  intro wake order routine member
  obtain ⟨i, at_i⟩ := List.mem_iff_getElem?.mp member
  have pausing := mem_pausing.mpr ⟨routine, at_i⟩
  exact (List.min?_eq_some_iff.mp hnext).2 wake (List.mem_map_of_mem pausing)

theorem before_run (bound : Nat) {g : Group σ α} (h : g.world.Timely)
    (ahead : PausesAhead g.world.clock g.members) : g.world.Before (g.run bound).2 := by
  induction bound generalizing g with
  | zero => exact h.before_self
  | succ bound ih =>
      obtain ⟨next, hsteps, hrun⟩ := g.run_steps
      rw [hrun]
      cases hsteps with
      | @turn i queue routine =>
          obtain ⟨hbefore, hahead⟩ := turn_ahead h ahead i routine queue
          exact hbefore.trans (ih hbefore.timely hahead)
      | @skip _ queue => exact ih (g := { g with queue }) h ahead
      | @wake time w _ _ hnext reached =>
          have hwait := h.before_wait (ahead.le_nextWake hnext)
          rw [reached] at hwait
          have hahead : PausesAhead w.clock (g.wakeAt time w).members :=
            World.clock_of_wait reached ▸ (nextWake_ahead hnext).wakeAll _
          exact hwait.trans (ih hwait.timely hahead)
      | ended | stuck => exact h.before_self
      | cut _ hnext missed =>
          have hwait := h.before_wait (ahead.le_nextWake hnext)
          rwa [missed] at hwait

/-- Several routines that did not all end were cut at the deadline. -/
theorem deadline_of_run (bound : Nat) {g : Group σ α} {later : World σ}
    (hcut : g.run bound = (.cut, later)) : later.deadline = some later.clock := by
  induction bound generalizing g with
  | zero => cases hcut
  | succ bound ih =>
      obtain ⟨next, hsteps, hrun⟩ := g.run_steps
      rw [hrun] at hcut
      cases hsteps with
      | turn => exact ih hcut
      | @skip _ queue => exact ih (g := { g with queue }) hcut
      | wake => exact ih hcut
      | ended | stuck => cases hcut
      | cut _ _ missed =>
          cases hcut
          exact World.deadline_of_wait missed

end Group

/-- Several routines that begin at once go forward in time together. -/
theorem before_runTogether (bound : Nat) (routines : List (Routine σ α)) {w : World σ}
    (h : w.Timely) : w.Before (runTogether bound routines w).2 := by
  refine Group.before_run bound (g := Group.start routines w) h ?_
  intro time order routine member
  obtain ⟨_, _, impossible⟩ := List.mem_map.mp member
  cases impossible

end Routine

namespace Activity

variable {σ : Type}

/-- A rest that begins uncancelled waits for its end, or for a cancellation that comes first. -/
theorem restUntil_eq {w : World σ} (hrunning : w.cancelled = false) (time : Nat)
    (ended woken : Verdict) (interrupted : String) :
    ∃ wake verdict, (wake = time ∧ verdict = ended ∨ wake ∈ w.cancelAt ∧ verdict = woken) ∧
      restUntil time ended woken interrupted w =
        match w.wait wake with
        | (true, later) => (.verdict verdict, later)
        | (false, later) => (.cut [interrupted], later) := by
  unfold restUntil
  simp only [hrunning, Bool.false_eq_true, if_false]
  cases hcancel : w.cancelAt.filter (· < time) with
  | none => exact ⟨time, ended, .inl ⟨rfl, rfl⟩, rfl⟩
  | some due =>
      exact ⟨due, woken, .inr ⟨(Option.filter_eq_some_iff.mp hcancel).1, rfl⟩, rfl⟩

/-- A rest that is not cut comes to one of its two verdicts. -/
theorem verdict_of_rest {micros turns : Nat} {ended woken v : Verdict} {interrupted : String}
    {w later : World σ}
    (hrun : (Activity.rest micros ended woken interrupted).run turns w = (.verdict v, later)) :
    v = ended ∨ v = woken := by
  cases micros with
  | zero =>
      cases hrun
      exact .inl rfl
  | succ micros =>
      simp only [run] at hrun
      cases hcancelled : w.cancelled with
      | true =>
          simp only [restUntil, hcancelled, if_true] at hrun
          cases hrun
          exact .inr rfl
      | false =>
          obtain ⟨wake, verdict, hwake, heq⟩ := restUntil_eq hcancelled (w.clock + (micros + 1))
            ended woken interrupted
          rw [heq] at hrun
          split at hrun
          next =>
            cases hrun
            rcases hwake with ⟨_, hverdict⟩ | ⟨_, hverdict⟩
            · exact .inl hverdict
            · exact .inr hverdict
          next => cases hrun

theorem before_restUntil {w : World σ} (h : w.Timely) {time : Nat} (htime : w.clock ≤ time)
    (ended woken : Verdict) (interrupted : String) :
    w.Before (restUntil time ended woken interrupted w).2 := by
  cases hcancelled : w.cancelled with
  | true =>
      simp only [restUntil, hcancelled, if_true]
      exact h.before_self
  | false =>
      obtain ⟨wake, verdict, hwake, heq⟩ := restUntil_eq hcancelled time ended woken interrupted
      have hahead : w.clock ≤ wake := by
        rcases hwake with ⟨rfl, _⟩ | ⟨hdue, _⟩
        · exact htime
        · exact h.cancel hcancelled wake hdue
      have hwait := h.before_wait hahead
      rw [heq]
      cases hreached : w.wait wake with
      | mk reached later =>
          simp only [hreached] at hwait
          cases reached <;> exact hwait

/-- Whatever a step does, time only goes forward. -/
theorem before_run (bound : Nat) (activity : Activity σ) {w : World σ} (h : w.Timely) :
    w.Before (activity.run bound w).2 := by
  cases activity with
  | alone routine =>
      have hroutine := routine.before_runAlone h
      cases hrun : routine.runAlone w with
      | mk answer later =>
          simp only [hrun] at hroutine
          simp only [run, hrun]
          cases answer <;> exact hroutine
  | together workers judge selectors =>
      have hworkers := Routine.before_runTogether bound workers h
      cases hrun : Routine.runTogether bound workers w with
      | mk close later =>
          simp only [hrun] at hworkers
          simp only [run, hrun]
          cases close <;> exact hworkers
  | rest micros ended woken interrupted =>
      cases micros with
      | zero => exact h.before_self
      | succ micros =>
          exact before_restUntil h (Nat.le_add_right w.clock (micros + 1)) ended woken interrupted

/-- An activity that is cut is cut at the deadline. -/
theorem deadline_of_run (bound : Nat) (activity : Activity σ) {w later : World σ}
    {entries : List String} (hcut : activity.run bound w = (.cut entries, later)) :
    later.deadline = some later.clock := by
  cases activity with
  | alone routine =>
      simp only [run] at hcut
      split at hcut
      next => cases hcut
      next after hrun =>
        cases hcut
        exact routine.deadline_of_runAlone hrun
  | together workers judge selectors =>
      simp only [run] at hcut
      split at hcut
      next => cases hcut
      next after hrun =>
        cases hcut
        exact Routine.Group.deadline_of_run bound hrun
      next => cases hcut
  | rest micros ended woken interrupted =>
      cases micros with
      | zero => cases hcut
      | succ micros =>
          simp only [run] at hcut
          cases hcancelled : w.cancelled with
          | true =>
              simp only [restUntil, hcancelled, if_true] at hcut
              cases hcut
          | false =>
              obtain ⟨wake, verdict, _, heq⟩ := restUntil_eq hcancelled (w.clock + (micros + 1))
                ended woken interrupted
              rw [heq] at hcut
              split at hcut
              next => cases hcut
              next after hwait =>
                cases hcut
                exact World.deadline_of_wait hwait

end Activity

end BrowserSteps
