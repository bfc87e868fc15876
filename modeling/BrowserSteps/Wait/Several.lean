import BrowserSteps.Routine.Together
import BrowserSteps.Wait.Element

/-!
Waiting for several elements at once: one wait for each selector, and the answers in the
order of the selectors.
-/

namespace BrowserSteps.Wait

/-- What the wait for one selector of several brought. -/
structure Slot where
  element : Option ElementRef
  millis : Int
  deriving DecidableEq, Repr

/-- What the waits for several selectors brought, in their order. -/
structure Several where
  selectors : List String
  slots : List Slot
  deriving DecidableEq, Repr

namespace Several

def found (s : Several) : Nat := s.slots.countP (·.element.isSome)

def all (s : Several) : Bool := s.found = s.selectors.length

def any (s : Several) : Bool := 0 < s.found

/-- The selectors without an element. -/
def missing (s : Several) : List String :=
  ((s.selectors.zip s.slots).filter (·.2.element.isNone)).map (·.1)

/-- How long each wait took. -/
def report (s : Several) : String := durationReport (s.slots.map (·.millis))
where
  /-- Milliseconds with commas between them. -/
  durationReport (millis : List Int) : String :=
    "Duration: " ++ ",".intercalate (millis.map toString)

end Several

variable {σ τ : Type}

/-- The wait for one selector of several. -/
def worker (scale : TimeScale τ) (session : Session σ) (kind : SelectorKind) (limit : Number)
    (interval : τ) (heeds : Bool) (selector : String) : Command.Routine σ Slot :=
  Routine.world.bind fun before =>
    (element scale session kind selector limit interval heeds).bind fun result =>
      Routine.world.bind fun after =>
        .done (result.map fun located =>
          ⟨located.element?, scale.millis (scale.ofMicros (after.clock - before.clock))⟩)

/-- The answers of all waits, or the first failure. -/
def collect (selectors : List String) (results : List (Except Failure Slot)) :
    Except Failure Several :=
  (results.mapM id).map fun slots => ⟨selectors, slots⟩

end BrowserSteps.Wait
