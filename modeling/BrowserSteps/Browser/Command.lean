import BrowserSteps.Browser.Failure
import BrowserSteps.Datum.Basic

/-!
Commands to a browser, and browsers as state machines. A call takes effect when it is made
and answers after a while; until then other calls may be made.
-/

namespace BrowserSteps

/-- An element that has been found: what it was found by, and the way down from there. -/
structure ElementRef where
  key : String
  path : List Nat := []
  deriving DecidableEq, Repr, Inhabited

/-- What a browser is told to do. -/
inductive Command where
  | start
  | launch (headless : Bool)
  | newContext (width height : Int)
  | newPage
  | closeBrowser
  | stop
  | navigate (url : String)
  | query (selector : String)
  | click (element : ElementRef)
  | clear (element : ElementRef)
  | type (element : ElementRef) (value : String)
  | text (element : ElementRef)
  | children (element : ElementRef) (tag : String)
  | evaluate (source : String)
  | screenshot
  | throttle (latency download upload : Int)
  /-- Opens the debugging protocol of the page. -/
  | attach
  /-- Throttles by way of the debugging protocol. -/
  | emulate (latency download upload : Int)
  deriving DecidableEq, Repr

/-- What a browser answers. -/
inductive Reply where
  | nothing
  | datum (value : Datum)
  | text (value : Option String)
  | element (found : Option ElementRef)
  | elements (found : List ElementRef)
  | image (bytes : Text.Bytes)
  deriving Inhabited

/-- The end of a call: whether it asked for the run to be cancelled, and its answer. -/
structure Answer where
  cancels : Bool := false
  outcome : Except Failure Reply

/-- A call that has been made: the pause until its end, if it has any, and the end. -/
structure Call (δ : Type) where
  pause : Option Nat
  finish : Nat → δ → Answer × δ

/-- A browser: what a command does to it at an instant. -/
structure Browser (δ : Type) where
  call : Command → Nat → δ → Call δ × δ

end BrowserSteps
