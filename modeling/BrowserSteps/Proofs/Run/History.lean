import BrowserSteps.Run.Interpreter

/-!
The history of a run: the executions of steps that make it up, each with the state in which it
began. An execution that the bound on turns left unfinished is not part of a history, so the
history of an unfinished run is that of the part that is over. `Executes` says everything that one
execution can do and `Course` everything that the loop can do; the functions that run are shown to
follow them once, and whatever holds of a run is then proved by induction on its course.
-/

namespace BrowserSteps.Run

variable {σ : Type}

/-- One execution of a step, and the state in which it began. -/
structure Execution (σ : Type) where
  step : Step
  start : State σ

namespace Execution

/-- The index at which the step stands. -/
def index (e : Execution σ) : Nat := e.start.next

/-- What the execution means for the run, and the state that it leads to. -/
def executed (env : Env σ) (capturing : Bool) (e : Execution σ) : StepEnd × State σ :=
  execute env capturing e.step e.start

/-- How the activity of the step ended, and the world after it. -/
def activityEnd (env : Env σ) (e : Execution σ) : Exit × World σ :=
  (activity env e.step).run env.turns e.start.world

/-- The state in which the entries of the activity are in the log. -/
def noted (env : Env σ) (entries : List String) (world : World σ) (e : Execution σ) : State σ :=
  ({ markStart env e.step e.start with world }).noteAll env e.step.name entries

/-- The finish marker of a step whose activity ended with a verdict. -/
def measured (env : Env σ) (v : Verdict) (world : World σ) (e : Execution σ) : Bool × State σ :=
  markFinish env e.step v.stop (e.noted env v.entries world)

end Execution

/-- The parts in which the execution of a step can end, with what it means for the run and the
state that it leads to. -/
inductive Executes (env : Env σ) (capturing : Bool) (e : Execution σ) (ending : StepEnd)
    (t : State σ) : Prop where
  | ended (v : Verdict) (world : World σ) (unsaved : Bool) (s : State σ)
      (answered : e.activityEnd env = (.verdict v, world))
      (captured : markCapture env capturing e.step (e.measured env v world).2 =
        (.done unsaved, s))
      (ending_eq : ending = if v.stop then .stop else .goOn v.jump)
      (state_eq : t = s.record (endedOutcome env e.step e.start.result.log.lines.length
        (e.start.now env) (v.failed || (e.measured env v world).1 || unsaved) s))
  | cutInCapture (v : Verdict) (world : World σ)
      (answered : e.activityEnd env = (.verdict v, world))
      (captured : markCapture env capturing e.step (e.measured env v world).2 = (.cut, t))
      (ending_eq : ending = .cut)
  | cutInActivity (entries : List String) (world : World σ)
      (answered : e.activityEnd env = (.cut entries, world))
      (ending_eq : ending = .cut)
      (state_eq : t = e.noted env entries world)
  | unfinished (world : World σ)
      (answered : e.activityEnd env = (.unfinished, world))
      (ending_eq : ending = .unfinished)
      (state_eq : t = { markStart env e.step e.start with world })

@[simp] theorem world_markStart (env : Env σ) (step : Step) (s : State σ) :
    (markStart env step s).world = s.world := by
  unfold markStart
  split <;> rfl

theorem Executes.of_executed {env : Env σ} {capturing : Bool} {e : Execution σ}
    {ending : StepEnd} {t : State σ} (h : e.executed env capturing = (ending, t)) :
    Executes env capturing e ending t := by
  unfold Execution.executed execute at h
  simp only [world_markStart] at h
  cases hactivity : (activity env e.step).run env.turns e.start.world with
  | mk exit world =>
    simp only [hactivity] at h
    cases exit with
    | verdict v =>
      simp only [conclude] at h
      cases hcapture : markCapture env capturing e.step (e.measured env v world).2 with
      | mk part s =>
        simp only [Execution.measured, Execution.noted] at hcapture
        simp only [hcapture] at h
        cases part with
        | done unsaved =>
          cases h
          exact .ended v world unsaved s hactivity hcapture rfl rfl
        | cut =>
          cases h
          exact .cutInCapture v world hactivity hcapture rfl
    | cut entries =>
      cases h
      exact .cutInActivity entries world hactivity rfl rfl
    | unfinished =>
      cases h
      exact .unfinished world hactivity rfl rfl

/-- What comes to a verdict is neither cut nor left unfinished. -/
theorem ending_of_verdict (v : Verdict) {ending : StepEnd}
    (h : ending = if v.stop then .stop else .goOn v.jump) :
    ending ≠ .cut ∧ ending ≠ .unfinished := by
  subst h
  cases v.stop <;> simp

theorem Executes.result_of_unfinished {env : Env σ} {capturing : Bool} {e : Execution σ}
    {t : State σ} (h : Executes env capturing e .unfinished t) : t.result = e.start.result := by
  cases h with
  | ended v _ _ _ _ _ ending_eq => exact absurd rfl (ending_of_verdict v ending_eq).2
  | cutInCapture _ _ _ _ ending_eq | cutInActivity _ _ _ ending_eq => cases ending_eq
  | unfinished world _ _ state_eq =>
      rw [state_eq, markStart]
      split <;> rfl

/-- The executions from a state on. The bound is on their number. -/
def executions (env : Env σ) (capturing : Bool) (steps : List Step) :
    Nat → State σ → List (Execution σ)
  | 0, _ => []
  | bound + 1, s =>
    match steps[s.next]? with
    | none => []
    | some step =>
      if s.world.cancelled then []
      else
        match execute env capturing step s with
        | (.goOn jump, t) => ⟨step, s⟩ :: executions env capturing steps bound (advance jump t)
        | (.stop, _) | (.cut, _) => [⟨step, s⟩]
        | (.unfinished, _) => []

/-- The executions of a run. -/
def history (env : Env σ) (steps : List Step) (order : Order) (bound : Nat) (world : World σ)
    (files : FileTree) : List (Execution σ) :=
  executions env order.capturing steps bound (opening env order world files)

/-- A course of the loop: the executions from a state on, why they end and the state after
them. -/
inductive Course (env : Env σ) (capturing : Bool) (steps : List Step) :
    State σ → List (Execution σ) → End → State σ → Prop where
  | finished {s : State σ} (past : steps[s.next]? = none) :
      Course env capturing steps s [] .finished s
  | cancelled {s : State σ} {step : Step} (here : steps[s.next]? = some step)
      (requested : s.world.cancelled = true) :
      Course env capturing steps s [] .cancelled (s.note env step.name Handler.cancelled)
  | next {s t u : State σ} {e : Execution σ} {rest : List (Execution σ)} {reason : End}
      {jump : Option Int} (start : e.start = s) (here : steps[e.index]? = some e.step)
      (running : s.world.cancelled = false) (executed : e.executed env capturing = (.goOn jump, t))
      (onward : Course env capturing steps (advance jump t) rest reason u) :
      Course env capturing steps s (e :: rest) reason u
  | stopped {s t : State σ} {e : Execution σ} (start : e.start = s)
      (here : steps[e.index]? = some e.step) (running : s.world.cancelled = false)
      (executed : e.executed env capturing = (.stop, t)) :
      Course env capturing steps s [e] .stopped t
  | cut {s t : State σ} {e : Execution σ} (start : e.start = s)
      (here : steps[e.index]? = some e.step) (running : s.world.cancelled = false)
      (executed : e.executed env capturing = (.cut, t)) :
      Course env capturing steps s [e] .cut t
  | waiting {s t : State σ} {e : Execution σ} (start : e.start = s)
      (here : steps[e.index]? = some e.step)
      (executed : e.executed env capturing = (.unfinished, t)) :
      Course env capturing steps s [] .unfinished t
  | bounded {s : State σ} : Course env capturing steps s [] .unfinished s

/-- The loop takes the course of its executions. -/
theorem loop_course (env : Env σ) (capturing : Bool) (steps : List Step) (bound : Nat)
    (s : State σ) :
    Course env capturing steps s (executions env capturing steps bound s)
      (loop env capturing steps bound s).1 (loop env capturing steps bound s).2 := by
  induction bound generalizing s with
  | zero => exact .bounded
  | succ bound ih =>
    unfold loop executions
    cases hstep : steps[s.next]? with
    | none => exact .finished hstep
    | some step =>
      cases hcancelled : s.world.cancelled with
      | true => exact .cancelled hstep hcancelled
      | false =>
        cases hexecute : execute env capturing step s with
        | mk ending t =>
          simp only [Bool.false_eq_true, if_false, hexecute]
          cases ending with
          | goOn jump => exact .next rfl hstep hcancelled hexecute (ih (advance jump t))
          | stop => exact .stopped rfl hstep hcancelled hexecute
          | cut => exact .cut rfl hstep hcancelled hexecute
          | unfinished => exact .waiting (e := ⟨step, s⟩) rfl hstep hexecute

section

variable {env : Env σ} {capturing : Bool} {steps : List Step} {s u : State σ}
  {es : List (Execution σ)} {reason : End}

/-- The first execution begins where the course does. -/
theorem Course.start_of_head (h : Course env capturing steps s es reason u) {e : Execution σ}
    (head : es[0]? = some e) : e.start = s := by
  cases h with
  | next start | stopped start | cut start =>
    cases head
    exact start
  | finished | cancelled | waiting | bounded => cases head

theorem Course.here (h : Course env capturing steps s es reason u) :
    ∀ e ∈ es, steps[e.index]? = some e.step := by
  induction h with
  | next _ here _ _ _ ih => exact List.forall_mem_cons.mpr ⟨here, ih⟩
  | stopped _ here | cut _ here => exact List.forall_mem_singleton.mpr here
  | finished | cancelled | waiting | bounded => exact List.forall_mem_nil _

/-- An execution that is followed by another went on, and the other begins where it led. -/
theorem Course.successor (h : Course env capturing steps s es reason u) {k : Nat}
    {e after : Execution σ} (at_k : es[k]? = some e) (at_next : es[k + 1]? = some after) :
    ∃ jump t, e.executed env capturing = (.goOn jump, t) ∧ after.start = advance jump t := by
  induction h generalizing k with
  | next start here running executed onward ih =>
    cases k with
    | zero =>
      cases at_k
      exact ⟨_, _, executed, onward.start_of_head at_next⟩
    | succ k => exact ih at_k at_next
  | stopped | cut => simp at at_next
  | finished | cancelled | waiting | bounded => cases at_k

/-- Nothing is executed after an execution that does not go on, and the run ends as it says. -/
theorem Course.last_of_executed (h : Course env capturing steps s es reason u) {k : Nat}
    {e : Execution σ} (at_k : es[k]? = some e) :
    (∃ jump, (e.executed env capturing).1 = .goOn jump) ∨
      k + 1 = es.length ∧ ((e.executed env capturing).1 = .stop ∧ reason = .stopped ∨
        (e.executed env capturing).1 = .cut ∧ reason = .cut) := by
  induction h generalizing k with
  | next start here running executed onward ih =>
    cases k with
    | zero =>
      cases at_k
      exact .inl ⟨_, by rw [executed]⟩
    | succ k => simpa using ih at_k
  | stopped start here running executed =>
    obtain ⟨rfl, rfl⟩ : k = 0 ∧ e = _ := by simpa [List.getElem?_singleton, eq_comm] using at_k
    exact .inr ⟨rfl, .inl ⟨by rw [executed], rfl⟩⟩
  | cut start here running executed =>
    obtain ⟨rfl, rfl⟩ : k = 0 ∧ e = _ := by simpa [List.getElem?_singleton, eq_comm] using at_k
    exact .inr ⟨rfl, .inr ⟨by rw [executed], rfl⟩⟩
  | finished | cancelled | waiting | bounded => cases at_k

end

/-- A run is the course of its history, brought to its end. -/
theorem run_course (env : Env σ) (steps : List Step) (order : Order) (bound : Nat)
    (world : World σ) (files : FileTree) :
    ∃ u, Course env order.capturing steps (opening env order world files)
        (history env steps order bound world files) (run env steps order bound world files).1 u ∧
      (run env steps order bound world files).2 =
        closing env steps (run env steps order bound world files).1 u :=
  ⟨_, loop_course env order.capturing steps bound (opening env order world files), rfl⟩

end BrowserSteps.Run
