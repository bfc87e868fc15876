import BrowserSteps.Session.Exclusive

/-!
A browser that is open while it is used. A new session launches it, and closes it after the use,
however that ends. A session that could not be launched is left as it is.
-/

namespace BrowserSteps

variable {δ α : Type}

/-- A session that has done nothing yet. -/
def Owned.fresh (browser : δ) : Owned δ := { browser }

namespace Session

/-- Launches the browser in a new session, lets it be used and closes it. -/
def opened (browser : Browser δ) (window : Window) (use : World (Owned δ) → α × World (Owned δ))
    (world : World (Owned δ)) : Except Failure α × World (Owned δ) :=
  let world := { world with shared := Owned.fresh world.shared.browser }
  match (launch browser window).runToEnd world with
  | (.error e, world) => (.error e, world)
  | (.ok (), world) =>
    let (value, world) := use world
    let ((), world) := (close browser).runToEnd world
    (.ok value, world)

end Session

end BrowserSteps
