import BrowserSteps.Proofs.Routine.Interference
import BrowserSteps.Proofs.Run.Congruence
import BrowserSteps.Session.Exclusive

/-!
The ledger of a browser: which commands were given, and which of them were granted. Commands that
open and close a browser make up its life. What a session does for steps leaves that part of the
ledger alone, and what the session holds with it.
-/

namespace BrowserSteps

variable {δ α : Type}

namespace Ledger

/-- What is entered: a command that is given, and one that succeeded. -/
inductive Entry where
  | given (command : Command)
  | granted (command : Command)
  deriving DecidableEq, Repr

def Entry.command : Entry → Command
  | .given command | .granted command => command

end Ledger

/-- The state of a browser, and its ledger. -/
structure Ledger (δ : Type) where
  browser : δ
  entries : List Ledger.Entry := []

/-- A call that enters its success. -/
def Call.recorded (c : Call δ) (command : Command) : Call (Ledger δ) where
  pause := c.pause
  finish now d :=
    let ended := c.finish now d.browser
    (ended.1, ⟨ended.2, match ended.1.outcome with
      | .ok _ => d.entries ++ [.granted command]
      | .error _ => d.entries⟩)

/-- A browser that keeps a ledger. -/
def Browser.recorded (browser : Browser δ) : Browser (Ledger δ) where
  call command now d :=
    let called := browser.call command now d.browser
    (called.1.recorded command, ⟨called.2, d.entries ++ [.given command]⟩)

/-- The commands that open and close a browser. -/
def Command.isVital : Command → Bool
  | .start | .launch _ | .newContext _ _ | .newPage | .closeBrowser | .stop => true
  | _ => false

namespace Ledger

/-- The state of a session without its ledger. -/
def unrecorded (s : Owned (Ledger δ)) : Owned δ := { s with browser := s.browser.browser }

/-- The state of a session whose ledger is empty. -/
def blank (s : Owned δ) : Owned (Ledger δ) := { s with browser := ⟨s.browser, []⟩ }

/-- The entries of a ledger that are about opening and closing. -/
def vital (entries : List Entry) : List Entry := entries.filter (·.command.isVital)

theorem vital_append (earlier later : List Entry) :
    vital (earlier ++ later) = vital earlier ++ vital later := List.filter_append earlier later

/-- What a session believes to hold. -/
structure Holding where
  phase : Phase := .idle
  hasDriver : Bool := false
  hasBrowser : Bool := false
  hasContext : Bool := false
  hasPage : Bool := false
  deriving DecidableEq, Repr

/-- The life of a browser: what its session holds, and what the ledger says of its opening and
closing. -/
structure Life where
  holding : Holding
  entries : List Entry
  deriving DecidableEq, Repr

def lifeOf (s : Owned (Ledger δ)) : Life where
  holding := ⟨s.phase, s.hasDriver, s.hasBrowser, s.hasContext, s.hasPage⟩
  entries := vital s.browser.entries

/-- A life with more entries. -/
def Life.enter (life : Life) (entries : List Entry) : Life :=
  { life with entries := life.entries ++ entries }

/-- Nobody interferes with the life of the browser. -/
def sparing (δ : Type) : Routine.Terms (Owned (Ledger δ)) where
  rely w later := lifeOf later.shared = lifeOf w.shared
  guarantee w later := lifeOf later.shared = lifeOf w.shared
  rely_refl _ := rfl
  rely_trans h h' := h'.trans h
  rely_passTo _ _ := rfl

/-- A routine with a ledger does what the one without does, and leaves the life of the browser
alone. -/
structure Spares (r' : Routine (Owned (Ledger δ)) α) (r : Routine (Owned δ) α) : Prop where
  shadows : r'.Shadows unrecorded r
  meets : ∀ w, r'.Meets (sparing δ) (fun _ _ => True) w

theorem spares_congruence :
    Routine.Congruence (unrecorded : Owned (Ledger δ) → Owned δ) Spares where
  done value := ⟨.done value, fun _ _ _ => trivial⟩
  bind h hf := by
    refine ⟨h.shadows.bind fun value => (hf value).shadows, fun w => ?_⟩
    exact (h.meets w).bind fun value later _ => (hf value).meets later
  pause micros _ _ h := ⟨.pause micros h.shadows, fun _ later _ => h.meets later⟩
  world h := ⟨.world fun w => (h w).shadows, fun w => ⟨rfl, (h w).meets _⟩⟩

theorem shadows_ask (browser : Browser δ) (command : Command) (read : Reply → α) :
    (Session.ask browser.recorded .owned command read).Shadows unrecorded
      (Session.ask browser .owned command read) := by
  refine .bind (.act (fun _ => rfl) fun w => ?_) fun answer => .done _
  have hfinish (c : Call δ) : (Session.finishCall .owned (c.recorded command)).Shadows unrecorded
      (Session.finishCall .owned c) := .act (fun _ => rfl) fun _ => .done _
  simp only [Browser.recorded, Call.recorded, Session.Lens.owned, World.map, unrecorded]
    at hfinish ⊢
  cases (browser.call command w.clock w.shared.browser.browser).1.pause with
  | none => exact hfinish _
  | some micros => exact .pause micros (hfinish _)

/-- Commands that do not open or close a browser are not entered among those that do. -/
theorem spares_ask (browser : Browser δ) {command : Command} (page : command.isVital = false)
    (read : Reply → α) :
    Spares (Session.ask browser.recorded .owned command read)
      (Session.ask browser .owned command read) := by
  refine ⟨shadows_ask browser command read, fun w => ?_⟩
  have hgiven : vital [.given command] = [] := by simp [vital, Entry.command, page]
  have hgranted : vital [.granted command] = [] := by simp [vital, Entry.command, page]
  have hfinish (c : Call δ) (later : World (Owned (Ledger δ))) :
      ((Session.finishCall .owned (c.recorded command)).bind
        fun answer => .done (answer.map read)).Meets (sparing δ) (fun _ _ => True) later := by
    refine ⟨?_, fun _ _ => trivial⟩
    simp only [sparing, lifeOf, World.apply, Session.Lens.owned, Call.recorded]
    split
    · rw [vital_append, hgranted, List.append_nil]
    · rfl
  refine ⟨?_, ?_⟩
  · simp only [sparing, lifeOf, World.apply, Session.Lens.owned, Browser.recorded]
    rw [vital_append, hgiven, List.append_nil]
  · simp only [Browser.recorded, Session.Lens.owned]
    cases hpause : (browser.call command w.clock w.shared.browser.browser).1.pause with
    | none =>
        simp only [Call.recorded, hpause]
        exact hfinish _ _
    | some micros =>
        simp only [Call.recorded, hpause]
        exact fun later _ => hfinish _ later

theorem Spares.locked {body' : Routine (Owned (Ledger δ)) α} {body : Routine (Owned δ) α}
    (h : Spares body' body) : Spares body'.locked body.locked := by
  refine ⟨.acquire (h.shadows.bind fun value => .release (.done value)), fun w later _ => ?_⟩
  exact (h.meets later).bind fun value last _ => fun _ _ => trivial

theorem spares_onPage {body' : Command.Routine (Owned (Ledger δ)) α}
    {body : Command.Routine (Owned δ) α} (h : Spares body' body) :
    Spares (Session.onPage body') (Session.onPage body) := by
  refine spares_congruence.world fun w => ?_
  change Spares (if w.shared.isUsable then body' else _) (if w.shared.isUsable then body else _)
  split
  · exact h
  · exact spares_congruence.done _

theorem spares_withContext (fault : SessionFault) {body' : Command.Routine (Owned (Ledger δ)) α}
    {body : Command.Routine (Owned δ) α} (h : Spares body' body) :
    Spares (Session.withContext fault body') (Session.withContext fault body) := by
  refine spares_congruence.world fun w => ?_
  change Spares (if w.shared.hasContext then body' else _) (if w.shared.hasContext then body else _)
  split
  · exact h
  · exact spares_congruence.done _

theorem spares_steps {commands' : List (Command.Routine (Owned (Ledger δ)) Unit)}
    {commands : List (Command.Routine (Owned δ) Unit)}
    (h : List.Forall₂ Spares commands' commands) :
    Spares (Session.steps commands') (Session.steps commands) := by
  induction h with
  | nil => exact spares_congruence.done _
  | cons command _ ih =>
      refine spares_congruence.bind command fun result => ?_
      cases result with
      | ok _ => exact ih
      | error e => exact spares_congruence.done _

/-- No command that a session has for steps opens or closes its browser. -/
theorem related_exclusive_spares (browser : Browser δ) :
    (Session.exclusive browser.recorded).Related Spares (Session.exclusive browser) where
  navigate url := (spares_onPage (spares_ask browser rfl _)).locked
  find kind value := by
    simp only [Session.exclusive]
    cases Session.selectorText kind value with
    | error fault => exact spares_congruence.done _
    | ok selector => exact (spares_onPage (spares_ask browser rfl _)).locked
  children element tag := (spares_ask browser rfl _).locked
  click element := (spares_ask browser rfl _).locked
  setText element value :=
    (spares_steps (.cons (spares_ask browser rfl _) (.cons (spares_ask browser rfl _) .nil))).locked
  getText element := (spares_ask browser rfl _).locked
  runScript source := (spares_onPage (spares_ask browser rfl _)).locked
  screenshot := (spares_onPage (spares_ask browser rfl _)).locked
  throttle latency download upload :=
    spares_withContext _ (spares_withContext _ (spares_onPage (spares_steps
      (.cons (spares_ask browser rfl _) (.cons (spares_ask browser rfl _) .nil))))).locked

/-- What spares the life of the browser alone does so to its end or to its cut. -/
theorem Spares.life_runAlone {r' : Routine (Owned (Ledger δ)) α} {r : Routine (Owned δ) α}
    (h : Spares r' r) (w : World (Owned (Ledger δ))) :
    lifeOf (r'.runAlone w).2.shared = lifeOf w.shared := by
  have hrely : (sparing δ).rely w (r'.runAlone w).2 := (h.meets w).rely_runAlone id
  exact hrely

/-- And when it runs to its end, whatever the deadline. -/
theorem Spares.life_runToEnd {r' : Routine (Owned (Ledger δ)) α} {r : Routine (Owned δ) α}
    (h : Spares r' r) (w : World (Owned (Ledger δ))) :
    lifeOf (r'.runToEnd w).2.shared = lifeOf w.shared := by
  have hrely : (sparing δ).rely w (r'.runToEnd w).2 := (h.meets w).rely_runToEnd id
  exact hrely

/-- What spares it one by one does so together. -/
theorem Spares.life_runTogether {routines' : List (Routine (Owned (Ledger δ)) α)}
    {routines : List (Routine (Owned δ) α)} (h : List.Forall₂ Spares routines' routines)
    (turns : Nat) (w : World (Owned (Ledger δ))) :
    lifeOf (Routine.runTogether turns routines' w).2.shared = lifeOf w.shared := by
  have hmeets (i : Nat) (r' : Routine (Owned (Ledger δ)) α) (at_i : routines'[i]? = some r')
      (later : World (Owned (Ledger δ))) : r'.Meets (sparing δ) (fun _ _ => True) later := by
    have hi := Routine.rel_getElem? h i
    rw [at_i] at hi
    generalize routines[i]? = plain at hi
    cases hi with
    | some related => exact related.meets later
  have hstart : Routine.Group.Meets (fun _ => sparing δ) (fun _ _ _ => True)
      (Routine.Group.start routines' w).world (Routine.Group.start routines' w).members :=
    Routine.Group.meets_start fun i r at_i later _ => hmeets i r at_i later
  have hrely : (sparing δ).rely w (Routine.runTogether turns routines' w).2 :=
    hstart.rely_run (fun _ _ _ h => h) turns fun _ _ _ _ h => h
  exact hrely

end Ledger

end BrowserSteps
