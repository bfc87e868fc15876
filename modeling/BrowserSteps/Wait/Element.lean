import BrowserSteps.Session.Basic
import BrowserSteps.Wait.TimeScale

/-!
Waiting for an element: the session is asked again and again until it finds the element,
the limit is reached or the run is cancelled. There is at least one query, whatever the
limit; a query that fails counts as one that finds nothing.
-/

namespace BrowserSteps.Wait

/-- Why a wait ended without an element. -/
inductive Reason where
  | selectorKind
  | timeout
  | cancelled
  /-- The bound on the number of queries was too small. -/
  | unfinished
  deriving DecidableEq, Repr

def Reason.message : Reason → String
  | .selectorKind => "Wrong selectorType, should be one of [id, class, name, xpath]"
  | .timeout => "wait element timeout"
  | .cancelled => "run cancelled"
  | .unfinished => ""

/-- How a wait ended and how long it took. -/
inductive Located (τ : Type) where
  | found (element : ElementRef) (elapsed : τ)
  | missed (reason : Reason) (elapsed : τ)

namespace Located

variable {τ : Type}

def element? : Located τ → Option ElementRef
  | .found element _ => some element
  | .missed .. => none

def elapsed : Located τ → τ
  | .found _ elapsed | .missed _ elapsed => elapsed

def reason? : Located τ → Option Reason
  | .found .. => none
  | .missed reason _ => some reason

end Located

variable {σ τ : Type}

/-- What a wait needs to know. -/
structure Plan (τ : Type) where
  scale : TimeScale τ
  limit : τ
  interval : τ
  /-- Whether a cancellation ends the wait. -/
  heeds : Bool := true

/-- What one query makes of the wait: its end, or the pause before the next query. -/
def Plan.verdict (p : Plan τ) (found : Except Failure (Option ElementRef)) (elapsed : τ)
    (cancelled : Bool) : Located τ ⊕ Nat :=
  match found with
  | .ok (some element) => .inl (.found element elapsed)
  | _ =>
    if p.scale.reaches elapsed p.limit then .inl (.missed .timeout elapsed)
    else if p.heeds && cancelled then .inl (.missed .cancelled elapsed)
    else .inr (p.scale.pause (p.scale.shorter p.interval (p.scale.sub p.limit elapsed)))

/-- Queries until the wait is over. The bound is on the number of queries. -/
def poll (p : Plan τ) (query : Command.Routine σ (Option ElementRef)) (start : Nat) :
    Nat → Routine σ (Located τ)
  | 0 => Routine.world.bind fun w =>
    .done (.missed .unfinished (p.scale.ofMicros (w.clock - start)))
  | bound + 1 =>
    query.bind fun found =>
      Routine.world.bind fun w =>
        match p.verdict found (p.scale.ofMicros (w.clock - start)) w.cancelled with
        | .inl located => .done located
        | .inr pause => .pause pause (poll p query start bound)

/-- Waits for an element. An unknown selector kind ends the wait before its first query; a
limit beyond all spans is a failure. -/
def element (scale : TimeScale τ) (session : Session σ) (kind : SelectorKind) (value : String)
    (limit : Number) (interval : τ) (heeds : Bool) : Command.Routine σ (Located τ) :=
  Routine.world.bind fun w =>
    if kind = .unknown then .done (.ok (.missed .selectorKind (scale.ofMicros 0)))
    else
      match scale.limit? limit with
      | none => .done (.error .hugeDuration)
      | some limit =>
        (poll ⟨scale, limit, interval, heeds⟩ (session.find kind value) w.clock
          (scale.bound limit)).bind fun located => .done (.ok located)

end BrowserSteps.Wait
