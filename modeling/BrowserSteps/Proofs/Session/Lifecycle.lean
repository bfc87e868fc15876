import BrowserSteps.Proofs.Session.Release

/-!
The life of a session that is asked for one thing after the other: to launch and close its browser,
and for commands to the page. A launch may fail half-way and leave some of what it got; a close may
fail half-way too, and either can be followed by another launch. Still, between two requests the
phase of the session says when it holds everything and when nothing, and whatever it refuses does
not reach the browser.
-/

namespace BrowserSteps

namespace Session

variable {σ δ α : Type}

/-- The commands of a session that need its page. -/
inductive PageCommand where
  | navigate (url : String)
  | find (kind : SelectorKind) (value : String)
  | runScript (source : String)
  | screenshot
  | throttle (latency download upload : Int)
  deriving DecidableEq, Repr

/-- A routine without what it answers. -/
def told (r : Command.Routine σ α) : Command.Routine σ Unit :=
  r.bind fun answer => .done (answer.map fun _ => ())

namespace PageCommand

def routine (session : Session σ) : PageCommand → Command.Routine σ Unit
  | .navigate url => session.navigate url
  | .find kind value => told (session.find kind value)
  | .runScript source => told (session.runScript source)
  | .screenshot => told session.screenshot
  | .throttle latency download upload => session.throttle latency download upload

/-- An element is looked for by a kind of selector that there is. -/
def isKnown : PageCommand → Bool
  | .find kind _ => kind ≠ .unknown
  | .navigate _ | .runScript _ | .screenshot | .throttle .. => true

end PageCommand

/-- What a session can be asked for from outside. -/
inductive Request where
  | launch (window : Window)
  | close
  | page (command : PageCommand)
  deriving DecidableEq, Repr

namespace Request

/-- The routine of a request. Only a close has no failure to answer. -/
def routine (browser : Browser δ) : Request → Command.Routine (Owned δ) Unit
  | .launch window => Session.launch browser window
  | .close => (Session.close browser).bind fun _ => .done (.ok ())
  | .page command => command.routine (exclusive browser)

def isLaunch : Request → Bool
  | .launch _ => true
  | .close | .page _ => false

/-- What becomes of a request, and the world after it. -/
def serve (browser : Browser δ) (request : Request) (w : World (Owned δ)) :
    Except Failure Unit × World (Owned δ) :=
  (request.routine browser).runToEnd w

/-- The world after some requests, one after the other. -/
def serveAll (browser : Browser δ) (requests : List Request) (w : World (Owned δ)) :
    World (Owned δ) :=
  requests.foldl (fun w request => (request.serve browser w).2) w

end Request

section

variable (browser : Browser δ) {w : World (Owned δ)}

theorem runToEnd_locked (body : Routine (Owned δ) α) (w : World (Owned δ)) :
    body.locked.runToEnd w = body.runToEnd w :=
  body.runToEnd_bind (fun value => .release (.done value)) w

theorem runToEnd_onPage (inactive : w.shared.phase ≠ .active)
    (body : Command.Routine (Owned δ) α) :
    (onPage body).runToEnd w = (.error (.session .noActiveSession), w) := by
  have hunusable : w.shared.isUsable = false := by simp [Owned.isUsable, inactive]
  change Routine.runToEnd (if w.shared.isUsable then body else _) w = _
  rw [hunusable]
  rfl

theorem runToEnd_withContext (fault : SessionFault) (body : Command.Routine (Owned δ) α) :
    (withContext fault body).runToEnd w =
      if w.shared.hasContext then body.runToEnd w else (.error (.session fault), w) := by
  change Routine.runToEnd (if w.shared.hasContext then body else _) w = _
  split <;> rfl

theorem runToEnd_told {r : Command.Routine σ α} {w : World σ} {failure : Failure}
    (failed : r.runToEnd w = (.error failure, w)) :
    (told r).runToEnd w = (.error failure, w) := by
  rw [told, Routine.runToEnd_bind, failed]
  rfl

/-- A session that is not active refuses commands to the page before it gives any to its browser. -/
theorem page_refused (command : PageCommand) (inactive : w.shared.phase ≠ .active) :
    ∃ fault, (Request.page command).serve browser w = (.error (.session fault), w) ∧
      (command.isKnown → (Failure.session fault).kind = "RuntimeError") := by
  have hlocked {α : Type} (body : Command.Routine (Owned δ) α) :
      (onPage body).locked.runToEnd w = (.error (.session .noActiveSession), w) :=
    (runToEnd_locked _ w).trans (runToEnd_onPage inactive body)
  cases command with
  | navigate url => exact ⟨.noActiveSession, hlocked _, fun _ => rfl⟩
  | runScript source => exact ⟨.noActiveSession, runToEnd_told (hlocked _), fun _ => rfl⟩
  | screenshot => exact ⟨.noActiveSession, runToEnd_told (hlocked _), fun _ => rfl⟩
  | find kind value =>
      cases kind with
      | unknown => exact ⟨.unknownSelectorKind, rfl, nofun⟩
      | id | cssClass | name | xpath =>
          exact ⟨.noActiveSession, runToEnd_told (hlocked _), fun _ => rfl⟩
  | throttle latency download upload =>
      simp only [Request.serve, Request.routine, PageCommand.routine, exclusive,
        runToEnd_withContext, runToEnd_locked, runToEnd_onPage inactive]
      -- The context may be left from a launch that failed at the page.
      split
      · exact ⟨.noActiveSession, rfl, fun _ => rfl⟩
      · exact ⟨.noContext, rfl, fun _ => rfl⟩

theorem launch_refused (window : Window) (active : w.shared.phase = .active) :
    (Request.launch window).serve browser w = (.error (.session .alreadyActive), w) := by
  change Routine.runToEnd (if w.shared.phase = .active then _ else _) w = _
  rw [if_pos active]
  rfl

theorem serve_close (w : World (Owned δ)) :
    Request.close.serve browser w = (.ok (), ((close browser).runToEnd w).2) :=
  (close browser).runToEnd_bind _ w

/-- A session that is closed stays as it is until it is launched again. -/
theorem serve_of_closed {request : Request} (notLaunch : ¬ request.isLaunch)
    (closed : w.shared.phase = .closed) : (request.serve browser w).2 = w := by
  cases request with
  | launch window => exact absurd rfl notLaunch
  | close => rw [serve_close, Ledger.runToEnd_close_of_closed browser closed]
  | page command =>
      obtain ⟨fault, refused, -⟩ := page_refused browser command (by rw [closed]; nofun)
      rw [refused]

theorem serveAll_of_closed {requests : List Request}
    (noLaunch : ∀ request ∈ requests, ¬ request.isLaunch) (closed : w.shared.phase = .closed) :
    Request.serveAll browser requests w = w := by
  induction requests with
  | nil => rfl
  | cons request rest ih =>
      have hhead := serve_of_closed browser (noLaunch request List.mem_cons_self) closed
      rw [Request.serveAll, List.foldl_cons, hhead]
      exact ih fun request member => noLaunch request (List.mem_cons_of_mem _ member)

end

section

variable {R : ∀ {α : Type}, Routine (Owned (Ledger δ)) α → Routine (Owned δ) α → Prop}

/-- Commands to the page are related as those of the sessions are. -/
theorem related_page (congruence : Routine.Congruence Ledger.unrecorded R)
    {session' : Session (Owned (Ledger δ))} {session : Session (Owned δ)}
    (related : session'.Related R session) (command : PageCommand) :
    R (command.routine session') (command.routine session) := by
  have htold {α : Type} {r' : Command.Routine (Owned (Ledger δ)) α}
      {r : Command.Routine (Owned δ) α} (h : R r' r) : R (told r') (told r) :=
    congruence.bind h fun _ => congruence.done _
  cases command with
  | navigate url => exact related.navigate url
  | find kind value => exact htold (related.find kind value)
  | runScript source => exact htold (related.runScript source)
  | screenshot => exact htold related.screenshot
  | throttle latency download upload => exact related.throttle latency download upload

end

end Session

namespace Ledger

open Session

variable {δ : Type}

/-- What the phase of a session says about what it holds, between two requests. A session that is
idle may hold some of it. -/
structure Holding.Coherent (h : Holding) : Prop where
  settled : h.phase = .idle ∨ h.phase = .active ∨ h.phase = .closed
  active : h.phase = .active → h = .complete
  closed : h.phase = .closed → h = .closed

theorem Holding.Coherent.of_idle {h : Holding} (idle : h.phase = .idle) : h.Coherent where
  settled := .inl idle
  active active := by rw [idle] at active; cases active
  closed closed := by rw [idle] at closed; cases closed

theorem Holding.coherent_complete : Holding.complete.Coherent :=
  ⟨.inr (.inl rfl), fun _ => rfl, nofun⟩

theorem Holding.coherent_closed : Holding.closed.Coherent :=
  ⟨.inr (.inr rfl), nofun, fun _ => rfl⟩

section

variable (browser : Browser δ)

theorem holding_close {w : World (Owned (Ledger δ))}
    (coherent : (lifeOf w.shared).holding.Coherent) :
    (lifeOf (Request.close.serve browser.recorded w).2.shared).holding = .closed := by
  rw [serve_close]
  have hopen (notClosing : w.shared.phase ≠ .closing) (notClosed : w.shared.phase ≠ .closed) :
      (lifeOf ((Session.close browser.recorded).runToEnd w).2.shared).holding = .closed := by
    rw [runToEnd_close browser.recorded notClosing notClosed]
    rfl
  obtain idle | active | closed := coherent.settled
  · exact hopen (ne_of_eq_of_ne idle nofun) (ne_of_eq_of_ne idle nofun)
  · exact hopen (ne_of_eq_of_ne active nofun) (ne_of_eq_of_ne active nofun)
  · rw [runToEnd_close_of_closed browser.recorded closed]
    exact coherent.closed closed

/-- Each request keeps the phase in agreement with what is held. -/
theorem coherent_serve (request : Request) {w : World (Owned (Ledger δ))}
    (coherent : (lifeOf w.shared).holding.Coherent) :
    (lifeOf (request.serve browser.recorded w).2.shared).holding.Coherent := by
  cases request with
  | page command =>
      have hspares := related_page spares_congruence (related_exclusive_spares browser) command
      exact (congrArg (·.holding.Coherent) (hspares.life_runToEnd w)).mpr coherent
  | close => exact (holding_close browser coherent) ▸ Holding.coherent_closed
  | launch window =>
      by_cases active : w.shared.phase = .active
      · rw [launch_refused browser.recorded window active]
        exact coherent
      · obtain ⟨n, -, -, -, complete, idle⟩ := life_launch browser window active
        by_cases all : n = 4
        · exact (complete all) ▸ Holding.coherent_complete
        · exact .of_idle (idle all)

theorem coherent_serveAll (requests : List Request) {w : World (Owned (Ledger δ))}
    (coherent : (lifeOf w.shared).holding.Coherent) :
    (lifeOf (Request.serveAll browser.recorded requests w).shared).holding.Coherent := by
  induction requests generalizing w with
  | nil => exact coherent
  | cons request rest ih => exact ih (coherent_serve browser request coherent)

theorem shadows_request (request : Request) :
    (request.routine browser.recorded).Shadows unrecorded (request.routine browser) := by
  cases request with
  | launch window => exact shadows_launch browser window
  | close => exact (shadows_close browser).bind fun _ => .done _
  | page command =>
      exact (related_page spares_congruence (related_exclusive_spares browser) command).shadows

/-- Requests are served alike with a ledger and without. -/
theorem serveAll_map (requests : List Request) (w : World (Owned (Ledger δ))) :
    Request.serveAll browser requests (w.map unrecorded) =
      (Request.serveAll browser.recorded requests w).map unrecorded := by
  induction requests generalizing w with
  | nil => rfl
  | cons request rest ih =>
      have hhead := (shadows_request browser request).runToEnd_eq w
      rw [Request.serveAll, List.foldl_cons, Request.serve, hhead]
      exact ih _

/-- What a session does in a world that requests have led to. A world that stays as it is has no new
entries in its ledger. -/
structure Lawful (w : World (Owned (Ledger δ))) : Prop where
  coherent : (lifeOf w.shared).holding.Coherent
  /-- Without an active session there are no commands to the page. -/
  refused : w.shared.phase ≠ .active → ∀ command : PageCommand, command.isKnown →
    ∃ failure, (Request.page command).serve browser.recorded w = (.error failure, w) ∧
      failure.kind = "RuntimeError"
  /-- An active session is not launched again. -/
  launched : w.shared.phase = .active → ∀ window,
    (Request.launch window).serve browser.recorded w = (.error (.session .alreadyActive), w)
  /-- A close always succeeds. From then on the session holds nothing and gives no command, until it
  is launched again. -/
  closes : ∃ later, Request.close.serve browser.recorded w = (.ok (), later) ∧
    (lifeOf later.shared).holding = .closed ∧
    ∀ requests, (∀ request ∈ requests, ¬ request.isLaunch) →
      Request.serveAll browser.recorded requests later = later

theorem Lawful.of_coherent {w : World (Owned (Ledger δ))}
    (coherent : (lifeOf w.shared).holding.Coherent) : Lawful browser w where
  coherent := coherent
  refused inactive command known := by
    obtain ⟨fault, refused, kind⟩ := page_refused browser.recorded command inactive
    exact ⟨.session fault, refused, kind known⟩
  launched active window := launch_refused browser.recorded window active
  closes := by
    have hclosed := holding_close browser coherent
    rw [serve_close] at hclosed
    refine ⟨_, serve_close browser.recorded w, hclosed, fun requests noLaunch => ?_⟩
    exact serveAll_of_closed browser.recorded noLaunch (congrArg Holding.phase hclosed)

/-- Whatever a new session is asked for, and whatever its browser grants of it, the session keeps to
the rules of its phases; and what it does is what it does without a ledger. -/
theorem lawful_serveAll (requests : List Request) (w : World (Owned (Ledger δ))) :
    let start := { w with shared := Owned.fresh w.shared.browser }
    let now := Request.serveAll browser.recorded requests start
    Lawful browser now ∧
      Request.serveAll browser requests (start.map unrecorded) = now.map unrecorded := by
  intro start now
  have hfresh : (lifeOf start.shared).holding.Coherent := .of_idle rfl
  have hnow := coherent_serveAll browser requests hfresh
  exact ⟨.of_coherent browser hnow, serveAll_map browser requests start⟩

/-- A launch that fails at the page leaves a session that is idle and holds all but the page. -/
example :
    let browser : Browser Unit := ⟨fun command _ d => (⟨none, fun _ d => (⟨false,
      if command = .newPage then .error (.browser "Error" "crashed") else .ok .nothing⟩, d)⟩, d)⟩
    let w : World (Owned (Ledger Unit)) := { shared := Owned.fresh ⟨(), []⟩ }
    (lifeOf (Request.serveAll browser.recorded [.launch {}] w).shared).holding =
      ⟨.idle, true, true, true, false⟩ := rfl

end

end Ledger

end BrowserSteps
