import BrowserSteps.Run.Interpreter

/-!
Runners make runs one after the other. Two things stay with a runner from one run to the next: whether a
cancellation was requested, which all steps can see, and where the last screenshots went. A run begins by
clearing both.
-/

namespace BrowserSteps.Run

variable {σ : Type}

/-- A runner between its runs, in the world and with the files that it finds. -/
structure Runner (σ : Type) where
  world : World σ
  files : FileTree
  directory : Option Path := none

/-- Clears what an earlier run left behind. What was due before now does not come any more. -/
def State.clear (s : State σ) : State σ :=
  { s with
    directory := none
    world := { s.world with
      cancelled := false, deadline := none
      cancelAt := s.world.cancelAt.filter (s.world.clock ≤ ·) } }

namespace Runner

/-- A new runner, of which nothing has been requested. -/
def new (world : World σ) (files : FileTree) : Runner σ :=
  { world := { world with cancelled := false }, files }

/-- Requests that the run that is under way be cancelled, if there is one. -/
def cancel (r : Runner σ) : Runner σ := { r with world := { r.world with cancelled := true } }

/-- The state in which a runner enters a run: all that it kept, and a new result. -/
def enter (env : Env σ) (order : Order) (r : Runner σ) : State σ where
  world := r.world
  files := r.files
  directory := r.directory
  result := { tag := order.tag, startedAt := some (env.base.add r.world.clock) }

/-- Makes a run. Answers how and with which result it ended, and the runner after it. -/
def execute (env : Env σ) (steps : List Step) (order : Order) (bound : Nat) (r : Runner σ) :
    (End × RunResult) × Runner σ :=
  let startedAt := env.base.add r.world.clock
  let s := prepareCapture startedAt env order.capturing (throttle env (r.enter env order).clear)
  let s := { s with world := { s.world with deadline := deadlineFrom env.settings s.world.clock } }
  let (reason, s) := loop env order.capturing steps bound s
  let s := closing env steps reason s
  ((reason, s.result), { world := s.world, files := s.files, directory := s.directory })

/-- Whatever a runner kept, it makes the run that begins with nothing. -/
theorem execute_eq (env : Env σ) (steps : List Step) (order : Order) (bound : Nat) (r : Runner σ) :
    r.execute env steps order bound =
      let (reason, s) := run env steps order bound r.world r.files
      ((reason, s.result), { world := s.world, files := s.files, directory := s.directory }) := rfl

/-- What can happen to a runner. An execution that is abandoned leaves whatever directory it had. -/
inductive Event (σ : Type) where
  | execute (steps : List Step) (order : Order) (bound : Nat)
  | cancel
  | abandon (directory : Option Path)
  /-- Time passes, others use the session and the files. -/
  | outside (world : World σ) (files : FileTree)

/-- The runner after an event. Nobody else can take back what was requested of it. -/
def after (env : Env σ) (r : Runner σ) : Event σ → Runner σ
  | .execute steps order bound => (r.execute env steps order bound).2
  | .cancel => r.cancel
  | .abandon directory => { r with directory }
  | .outside world files =>
    { r with world := { world with cancelled := r.world.cancelled }, files }

/-- The runner after a history. -/
def afterAll (env : Env σ) (r : Runner σ) (events : List (Event σ)) : Runner σ :=
  events.foldl (after env) r

end Runner

end BrowserSteps.Run
