import BrowserSteps.Proofs.Routine.Isolation
import BrowserSteps.Session.Exclusive

/-!
Queries that take no time. If a browser answers its queries at the instant at which they are made,
by what it shows then, so does the session that lets one command at a time through.
-/

namespace BrowserSteps

variable {δ : Type}

/-- The browser answers a query at once by what it shows at that instant. A query may change the state
of the browser, but not what it goes on to show. -/
structure Browser.Shows (browser : Browser δ) (inv : δ → Prop)
    (present : String → Nat → Except Failure (Option ElementRef)) : Prop where
  instant : ∀ selector now d, inv d →
    ∀ micros ∈ (browser.call (.query selector) now d).1.pause, micros = 0
  called : ∀ selector now d, inv d → inv (browser.call (.query selector) now d).2
  finished : ∀ selector now d before, inv d → inv before →
    let ended := (browser.call (.query selector) now d).1.finish now before
    ended.1.cancels = false ∧ ended.1.outcome.map Reply.toElement = present selector now ∧
      inv ended.2

namespace Session

/-- What is known of the state of a session while queries are made. -/
def Steady (usable : Bool) (inv : δ → Prop) (s : Owned δ) : Prop :=
  s.isUsable = usable ∧ inv s.browser

/-- What a session finds at an instant. -/
def shown (usable : Bool) (present : String → Nat → Except Failure (Option ElementRef))
    (kind : SelectorKind) (value : String) (now : Nat) : Except Failure (Option ElementRef) :=
  match selectorText kind value with
  | .error fault => .error (.session fault)
  | .ok selector => if usable then present selector now else .error (.session .noActiveSession)

variable {browser : Browser δ} {inv : δ → Prop}
  {present : String → Nat → Except Failure (Option ElementRef)} {usable : Bool}
  {w : World (Owned δ)} {holds : Bool} {now : Nat}

theorem settles_query (shows : browser.Shows inv present) (selector : String) :
    Routine.Settles (Steady usable inv) w holds now
      (ask browser .owned (.query selector) Reply.toElement) (present selector now) now := by
  refine .act fun later clock _ steady => ⟨rfl, ⟨steady.1, ?_⟩, ?_⟩
  · exact shows.called selector _ _ steady.2
  subst clock
  generalize hcalled : (browser.call (.query selector) later.clock later.shared.browser).1 = c
  -- Whatever has become of the browser when the call ends, it is still the same instant.
  have hend : Routine.Settles (Steady usable inv) w holds later.clock
      ((finishCall .owned c).bind fun answer => .done (answer.map Reply.toElement))
      (present selector later.clock) later.clock := by
    refine .act fun last clock _ still => ?_
    obtain ⟨uncancelled, answer, showing⟩ :=
      shows.finished selector later.clock _ last.shared.browser steady.2 still.2
    rw [hcalled, ← clock] at uncancelled answer showing
    refine ⟨uncancelled, ⟨still.1, showing⟩, ?_⟩
    rw [← clock, ← answer]
    exact .done _
  have hinstant := shows.instant selector later.clock _ steady.2
  rw [hcalled] at hinstant
  cases hpause : c.pause with
  | none => simpa only [Lens.owned, hcalled, hpause] using hend
  | some micros =>
      obtain rfl : micros = 0 := hinstant micros hpause
      simp only [Lens.owned, hcalled, hpause]
      exact .pause (fun _ => rfl) hend

theorem settles_onPage {α : Type} {body : Command.Routine (Owned δ) α} {answer : Except Failure α}
    (h : usable = true → Routine.Settles (Steady usable inv) w holds now body answer now) :
    Routine.Settles (Steady usable inv) w holds now (onPage body)
      (if usable then answer else .error (.session .noActiveSession)) now := by
  cases usable with
  | true =>
      refine Routine.Settles.world (fun later _ _ steady => ?_) (h rfl)
      exact if_pos steady.1
  | false =>
      refine Routine.Settles.world (fun later _ _ steady => ?_) (.done _)
      exact if_neg (by simp [steady.1])

/-- A query of the session answers at once what the browser shows then. -/
theorem settles_find (shows : browser.Shows inv present) (kind : SelectorKind) (value : String) :
    Routine.Settles (Steady usable inv) w false now ((exclusive browser).find kind value)
      (shown usable present kind value now) now := by
  simp only [exclusive, shown]
  cases selectorText kind value with
  | error fault => exact .done _
  | ok selector => exact (settles_onPage fun _ => settles_query shows selector).locked

end Session

end BrowserSteps
