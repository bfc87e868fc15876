/-!
The world that routines run in: a clock in whole microseconds, the instants at which a
cancellation and a cut are due, and a state that all routines share. Time passes only
while everybody waits.
-/

namespace BrowserSteps

/-- The clock, what is due, and the shared state. All times are read off the one clock, which never
goes back; that of a machine can be set back. -/
structure World (σ : Type) where
  clock : Nat := 0
  /-- When everything that still runs is cut. -/
  deadline : Option Nat := none
  /-- When a cancellation will be requested. -/
  cancelAt : Option Nat := none
  /-- Whether a cancellation has been requested. -/
  cancelled : Bool := false
  shared : σ

/-- What can be changed at once: the shared state. A cancellation can be requested with it. -/
structure Change (σ : Type) where
  shared : σ
  cancels : Bool := false

namespace World

variable {σ : Type}

/-- Changes the shared state. Neither the clock nor what is due changes with it. -/
def apply (w : World σ) (change : Change σ) : World σ :=
  { w with shared := change.shared, cancelled := change.cancels || w.cancelled }

/-- Lets time pass up to an instant. A cancellation that is due by then is requested. -/
def passTo (w : World σ) (time : Nat) : World σ :=
  { w with
    clock := time
    cancelled := w.cancelled || w.cancelAt.any (· ≤ time) }

/-- The deadline, if it comes no later than an instant. -/
def cutBy? (w : World σ) (time : Nat) : Option Nat := w.deadline.filter (· ≤ time)

/-- Lets time pass up to an instant, or to the deadline if that comes first; the answer
tells whether the instant was reached. -/
def wait (w : World σ) (time : Nat) : Bool × World σ :=
  match w.cutBy? time with
  | some cut => (false, w.passTo cut)
  | none => (true, w.passTo time)

@[simp] theorem clock_passTo (w : World σ) (time : Nat) : (w.passTo time).clock = time := rfl

@[simp] theorem shared_passTo (w : World σ) (time : Nat) : (w.passTo time).shared = w.shared := rfl

@[simp] theorem deadline_passTo (w : World σ) (time : Nat) :
    (w.passTo time).deadline = w.deadline := rfl

end World

end BrowserSteps
