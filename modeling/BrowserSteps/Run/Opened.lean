import BrowserSteps.Config.Source
import BrowserSteps.Run.Interpreter
import BrowserSteps.Session.Opened

/-!
Runs in a browser of their own, which is launched before the run and closed after it.
-/

namespace BrowserSteps

/-- The window that a configuration asks for. -/
def Config.window (c : Config) : Window := ⟨c.headed, c.viewportWidth, c.viewportHeight⟩

namespace Run

variable {δ : Type}

/-- What runs in a browser of their own depend on. -/
structure Host (δ : Type) where
  browser : Browser δ
  /-- The instant at which the clock of the world shows zero. -/
  base : DateTime
  /-- The bound on the executions of steps, and on the turns of several waits. -/
  bound : Nat

/-- A run with all actions in the session of the browser. -/
def Host.env (host : Host δ) (config : Config) : Env (Owned δ) :=
  .full .binary (Session.exclusive host.browser) config.runSettings host.base host.bound

/-- Runs a step list, as a use of an open browser. Answers how and with which result the run ended, and
the files after it. -/
def Host.use (host : Host δ) (config : Config) (steps : List Step) (order : Order)
    (files : FileTree) (world : World (Owned δ)) :
    ((End × RunResult) × FileTree) × World (Owned δ) :=
  let (reason, s) := run (host.env config) steps order host.bound world files
  (((reason, s.result), s.files), s.world)

/-- Launches the browser, runs a step list and closes the browser. -/
def runOpened (host : Host δ) (config : Config) (steps : List Step) (order : Order)
    (world : World (Owned δ)) (files : FileTree) :
    Except Failure (End × RunResult) × World (Owned δ) × FileTree :=
  let (answer, world) :=
    Session.opened host.browser config.window (host.use config steps order files) world
  match answer with
  | .error e => (.error e, world, files)
  | .ok (ended, files) => (.ok ended, world, files)

end Run

end BrowserSteps
