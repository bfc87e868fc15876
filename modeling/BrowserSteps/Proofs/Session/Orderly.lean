import BrowserSteps.Proofs.Routine.Completion
import BrowserSteps.Session.Direct
import BrowserSteps.Session.Exclusive

/-!
Sessions are orderly: the session without a lock leaves the lock alone, and the one with a lock
takes it before a query and gives it back after it, so that no wait keeps it from the others.
-/

namespace BrowserSteps.Session

variable {σ δ α : Type}

theorem lockless_call (browser : Browser δ) (lens : Lens σ δ) (command : Command) :
    (call browser lens command).Lockless := by
  intro w
  simp only
  split <;> exact fun _ => trivial

theorem lockless_ask (browser : Browser δ) (lens : Lens σ δ) (command : Command)
    (read : Reply → α) : (ask browser lens command read).Lockless := by
  refine (lockless_call browser lens command).bind fun answer => ?_
  exact trivial

theorem lockless_onPage {body : Command.Routine (Owned δ) α} (h : body.Lockless) :
    (onPage body).Lockless := by
  intro w
  change Routine.Lockless (if _ then body else _)
  split
  · exact h
  · trivial

/-- A query without a lock leaves the lock alone. -/
theorem orderly_find_direct (browser : Browser δ) (kind : SelectorKind) (value : String) :
    ((direct browser).find kind value).Orderly false :=
  (lockless_ask browser .whole _ _).orderly

/-- A query of a session with a lock takes it and gives it back. -/
theorem orderly_find_exclusive (browser : Browser δ) (kind : SelectorKind) (value : String) :
    ((exclusive browser).find kind value).Orderly false := by
  simp only [exclusive]
  cases selectorText kind value with
  | error fault => rfl
  | ok selector => exact (lockless_onPage (lockless_ask browser .owned _ _)).orderly_locked

end BrowserSteps.Session
