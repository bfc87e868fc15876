import BrowserSteps.Routine.Basic

/-!
Several routines at once, on one thread. A routine runs until it pauses, ends or waits for
the lock. Those that can go on do so in the order in which they became able to; those that
wait for the lock get it first come, first served; those whose pauses end at the same
instant go on in the order in which the pauses began. The clock moves only when none can
go on, and the deadline cuts them all.
-/

namespace BrowserSteps.Routine

variable {σ α : Type}

/-- Where one of several routines stands. -/
inductive Member (σ α : Type) where
  | ready (routine : Routine σ α)
  | paused (wake order : Nat) (routine : Routine σ α)
  | blocked (routine : Routine σ α)
  | ended (value : α)

/-- The lock, and who waits for it. -/
structure Lock where
  held : Bool := false
  waiting : List Nat := []
  deriving Repr

/-- Why a routine stopped for now. -/
inductive Halt (σ α : Type) where
  | ended (value : α)
  | paused (micros : Nat) (routine : Routine σ α)
  | blocked (routine : Routine σ α)

/-- What a routine leaves when it stops for now: the reason, the world, the lock and those
whom it let in, in their order. -/
structure Burst (σ α : Type) where
  halt : Halt σ α
  world : World σ
  lock : Lock
  woken : List Nat

/-- Runs a routine until it stops for now. Whoever gives the lock back hands it to the
first in line. -/
def burst : Routine σ α → World σ → Lock → List Nat → Burst σ α
  | .done value, w, lock, woken => ⟨.ended value, w, lock, woken⟩
  | .act change next, w, lock, woken => (next w).burst (w.apply (change w)) lock woken
  | .pause micros next, w, lock, woken => ⟨.paused micros next, w, lock, woken⟩
  | .acquire next, w, lock, woken =>
    if lock.held then ⟨.blocked next, w, lock, woken⟩
    else next.burst w { lock with held := true } woken
  | .release next, w, lock, woken =>
    match lock.waiting with
    | [] => next.burst w { lock with held := false } woken
    | first :: others => next.burst w { lock with waiting := others } (woken ++ [first])

/-- Several routines and all that decides how they go on. -/
structure Group (σ α : Type) where
  world : World σ
  members : List (Member σ α)
  /-- Who can go on, in order. -/
  queue : List Nat
  lock : Lock := {}
  /-- How many pauses have begun. -/
  pauses : Nat := 0

namespace Group

/-- Routines that are about to begin, in their order. -/
def start (routines : List (Routine σ α)) (w : World σ) : Group σ α :=
  { world := w
    members := routines.map .ready
    queue := List.range routines.length }

/-- Makes a member able to go on. -/
def wake (members : List (Member σ α)) (i : Nat) : List (Member σ α) :=
  members.modify i fun m => match m with
    | .paused _ _ routine | .blocked routine => .ready routine
    | other => other

/-- Gives a turn to one member. -/
def turn (g : Group σ α) (i : Nat) (routine : Routine σ α) (queue : List Nat) : Group σ α :=
  let b := routine.burst g.world g.lock []
  let members := b.woken.foldl wake g.members
  let queue := queue ++ b.woken
  match b.halt with
  | .ended value =>
    { g with world := b.world, lock := b.lock, queue, members := members.set i (.ended value) }
  | .blocked next =>
    { g with
      world := b.world, queue, members := members.set i (.blocked next)
      lock := { b.lock with waiting := b.lock.waiting ++ [i] } }
  | .paused 0 next =>
    { g with
      world := b.world, lock := b.lock, members := members.set i (.ready next)
      queue := queue ++ [i] }
  | .paused (micros + 1) next =>
    { g with
      world := b.world, lock := b.lock, queue, pauses := g.pauses + 1
      members := members.set i (.paused (b.world.clock + (micros + 1)) g.pauses next) }

/-- The pauses that go on: who pauses, until when, and in which order they began. -/
def pausing (members : List (Member σ α)) : List (Nat × Nat × Nat) :=
  members.zipIdx.filterMap fun (m, i) => match m with
    | .paused wake order _ => some (i, wake, order)
    | _ => none

/-- The earliest end of a pause. -/
def nextWake? (members : List (Member σ α)) : Option Nat :=
  ((pausing members).map (·.2.1)).min?

/-- Who wakes at an instant, in the order in which the pauses began. -/
def wakingAt (members : List (Member σ α)) (time : Nat) : List Nat :=
  (((pausing members).filter (·.2.1 = time)).mergeSort fun a b => a.2.2 ≤ b.2.2).map (·.1)

/-- How several routines came to an end. -/
inductive Close (α : Type) where
  | ended (values : List α)
  | cut
  /-- The bound on the number of turns was too small. -/
  | unfinished
  deriving Repr

/-- The answers, once all have ended. -/
def answers? : List (Member σ α) → Option (List α)
  | [] => some []
  | .ended value :: rest => (answers? rest).map (value :: ·)
  | _ :: _ => none

/-- Goes on until all have ended. The bound is on the number of turns. -/
def run : Nat → Group σ α → Close α × World σ
  | 0, g => (.unfinished, g.world)
  | bound + 1, g =>
    match g.queue with
    | i :: queue =>
      match g.members[i]? with
      | some (.ready routine) => run bound (g.turn i routine queue)
      | _ => run bound { g with queue }
    | [] =>
      match answers? g.members with
      | some values => (.ended values, g.world)
      | none =>
        match nextWake? g.members with
        | none => (.unfinished, g.world)
        | some time =>
          match g.world.wait time with
          | (false, w) => (.cut, w)
          | (true, w) =>
            let waking := wakingAt g.members time
            run bound { g with world := w, queue := waking, members := waking.foldl wake g.members }

end Group

/-- Runs several routines at once. -/
def runTogether (bound : Nat) (routines : List (Routine σ α)) (w : World σ) :
    Group.Close α × World σ :=
  (Group.start routines w).run bound

end BrowserSteps.Routine
