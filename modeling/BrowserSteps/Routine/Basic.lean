import BrowserSteps.Routine.World

/-!
Routines: programs that look at the world, change its shared state, pause, and take and give
back one lock. Between two pauses a routine is not interrupted. A routine that runs alone gets the
lock whenever it asks for it; the deadline of the world cuts it in the middle of a pause.
-/

namespace BrowserSteps

inductive Routine (σ : Type) (α : Type) where
  | done (value : α)
  /-- Changes the shared state; what comes next depends on the world before the change. -/
  | act (change : World σ → Change σ) (next : World σ → Routine σ α)
  /-- Pauses for some microseconds; without any, it only lets others go first. -/
  | pause (micros : Nat) (next : Routine σ α)
  | acquire (next : Routine σ α)
  | release (next : Routine σ α)

namespace Routine

variable {σ α β : Type}

/-- One routine after another. -/
def bind : Routine σ α → (α → Routine σ β) → Routine σ β
  | .done value, f => f value
  | .act change next, f => .act change fun w => (next w).bind f
  | .pause micros next, f => .pause micros (next.bind f)
  | .acquire next, f => .acquire (next.bind f)
  | .release next, f => .release (next.bind f)

instance : Monad (Routine σ) where
  pure := .done
  bind := bind

/-- The world as it is. -/
def world : Routine σ (World σ) := .act (fun w => { shared := w.shared }) .done

/-- Changes the shared state. -/
def modify (change : σ → σ) : Routine σ Unit :=
  .act (fun w => { shared := change w.shared }) fun _ => .done ()

/-- Changes the shared state and answers something about it. -/
def update (f : World σ → β × σ) : Routine σ β :=
  .act (fun w => { shared := (f w).2 }) fun w => .done (f w).1

/-- Pauses for some microseconds. -/
def sleep (micros : Nat) : Routine σ Unit := .pause micros (.done ())

/-- A routine that holds the lock from its beginning to its end. -/
def locked (body : Routine σ α) : Routine σ α :=
  .acquire (body.bind fun value => .release (.done value))

/-- Runs a routine on its own. Without an answer it was cut. -/
def runAlone : Routine σ α → World σ → Option α × World σ
  | .done value, w => (some value, w)
  | .act change next, w => (next w).runAlone (w.apply (change w))
  | .pause 0 next, w => next.runAlone w
  | .pause (micros + 1) next, w =>
    match w.wait (w.clock + (micros + 1)) with
    | (true, w) => next.runAlone w
    | (false, w) => (none, w)
  | .acquire next, w => next.runAlone w
  | .release next, w => next.runAlone w

/-- Runs a routine on its own to its end, whatever the deadline. -/
def runToEnd : Routine σ α → World σ → α × World σ
  | .done value, w => (value, w)
  | .act change next, w => (next w).runToEnd (w.apply (change w))
  | .pause 0 next, w => next.runToEnd w
  | .pause (micros + 1) next, w => next.runToEnd (w.passTo (w.clock + (micros + 1)))
  | .acquire next, w => next.runToEnd w
  | .release next, w => next.runToEnd w

/-- A property of every answer that a routine can give. -/
def Yields (p : α → Prop) : Routine σ α → Prop
  | .done value => p value
  | .act _ next => ∀ w, (next w).Yields p
  | .pause _ next | .acquire next | .release next => next.Yields p

/-- A sequence runs its first part and then the rest. -/
theorem runAlone_bind (r : Routine σ α) (f : α → Routine σ β) (w : World σ) :
    (r.bind f).runAlone w =
      match r.runAlone w with
      | (some value, w) => (f value).runAlone w
      | (none, w) => (none, w) := by
  induction r generalizing w with
  | done value => rfl
  | act change next ih => exact ih w (w.apply (change w))
  | pause micros next ih =>
    cases micros with
    | zero => exact ih w
    | succ micros =>
      simp only [bind, runAlone]
      split
      · exact ih _
      · rfl
  | acquire next ih => exact ih w
  | release next ih => exact ih w

theorem runAlone_world (w : World σ) : world.runAlone w = (some w, w) := by
  simp [world, runAlone, World.apply]

/-- A sequence runs its first part and then the rest. -/
theorem runToEnd_bind (r : Routine σ α) (f : α → Routine σ β) (w : World σ) :
    (r.bind f).runToEnd w = (f (r.runToEnd w).1).runToEnd (r.runToEnd w).2 := by
  induction r generalizing w with
  | done value => rfl
  | act change next ih => exact ih w (w.apply (change w))
  | pause micros next ih =>
    cases micros with
    | zero => exact ih w
    | succ micros => exact ih _
  | acquire next ih => exact ih w
  | release next ih => exact ih w

/-- What a routine answers has the property of all its answers. -/
theorem Yields.of_runAlone {p : α → Prop} {r : Routine σ α} (h : r.Yields p) {w w' : World σ}
    {value : α} (run : r.runAlone w = (some value, w')) : p value := by
  induction r generalizing w with
  | done _ =>
    simp only [runAlone, Prod.mk.injEq, Option.some.injEq] at run
    exact run.1 ▸ h
  | act change next ih => exact ih w (h w) run
  | pause micros next ih =>
    cases micros with
    | zero => exact ih h run
    | succ micros =>
      simp only [runAlone] at run
      split at run
      · exact ih h run
      · simp at run
  | acquire next ih => exact ih h run
  | release next ih => exact ih h run

end Routine

end BrowserSteps
