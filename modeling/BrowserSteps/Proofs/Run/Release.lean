import BrowserSteps.Proofs.Run.Traffic
import BrowserSteps.Proofs.Session.Release
import BrowserSteps.Run.Opened

/-!
Runs in a browser of their own, with the ledger of that browser. A run gives no command that opens
or closes the browser, however it ends, so that all such commands are those of its session.
-/

namespace BrowserSteps.Run

variable {σ β δ : Type}

/-- An environment whose routines leave something about the shared state as it is. -/
structure Env.Preserves (view : σ → β) (env : Env σ) : Prop where
  activity : ∀ (step : Step) (w : World σ),
    view ((activity env step).run env.turns w).2.shared = view w.shared
  screenshot : ∀ w : World σ, view (env.session.screenshot.runAlone w).2.shared = view w.shared
  throttle : ∀ (latency download upload : Int) (w : World σ),
    view ((env.session.throttle latency download upload).runAlone w).2.shared = view w.shared

section

variable {view : σ → β} {env : Env σ} (h : env.Preserves view)

include h

theorem view_saveScreenshot (name : String) (s : State σ) :
    view (saveScreenshot env name s).2.world.shared = view s.world.shared := by
  have hshot := h.screenshot s.world
  unfold saveScreenshot
  cases s.directory with
  | none => rfl
  | some directory =>
      simp only
      split
      next hrun => rwa [hrun] at hshot
      next hrun => rwa [hrun] at hshot
      next hrun =>
        rw [hrun] at hshot
        split <;> exact hshot

theorem view_markCapture (capturing : Bool) (step : Step) (s : State σ) :
    view (markCapture env capturing step s).2.world.shared = view s.world.shared := by
  have hsave := view_saveScreenshot h step.name s
  unfold markCapture capture
  split
  · rcases hsaved : saveScreenshot env step.name s with ⟨(e | path) | _, t⟩ <;>
      rw [hsaved] at hsave <;> exact hsave
  · rfl

theorem view_conclude (capturing : Bool) (step : Step) (before : Nat) (startedAt : DateTime)
    (v : Verdict) (s : State σ) :
    view (conclude env capturing step before startedAt v s).2.world.shared =
      view s.world.shared := by
  have hmarked : (markFinish env step v.stop (s.noteAll env step.name v.entries)).2.world =
      s.world := by
    rw [noteAll_eq, markFinish]
    split <;> rfl
  have hcapture := view_markCapture h capturing step
    (markFinish env step v.stop (s.noteAll env step.name v.entries)).2
  rw [hmarked] at hcapture
  simp only [conclude]
  rcases hcaptured : markCapture env capturing step _ with ⟨unsaved | _, t⟩ <;>
    rw [hcaptured] at hcapture <;> exact hcapture

theorem view_execute (capturing : Bool) (step : Step) (s : State σ) :
    view (execute env capturing step s).2.world.shared = view s.world.shared := by
  have hactivity := h.activity step s.world
  simp only [execute, markStart_eq]
  rcases hran : (activity env step).run env.turns s.world with ⟨v | entries | _, world⟩ <;>
    rw [hran] at hactivity
  · exact (view_conclude h capturing step _ _ v _).trans hactivity
  · simp only [noteAll_eq]
    exact hactivity
  · exact hactivity

theorem view_loop (capturing : Bool) (steps : List Step) (bound : Nat) (s : State σ) :
    view (loop env capturing steps bound s).2.world.shared = view s.world.shared := by
  induction bound generalizing s with
  | zero => rfl
  | succ bound ih =>
      simp only [loop]
      cases steps[s.next]? with
      | none => rfl
      | some step =>
          have hexecute := view_execute h capturing step s
          simp only
          split
          · rfl
          · rcases hexecuted : execute env capturing step s with ⟨jump | _ | _ | _, t⟩ <;>
              rw [hexecuted] at hexecute
            · exact (ih (advance jump t)).trans hexecute
            · exact hexecute
            · exact hexecute
            · exact hexecute

theorem view_opening (order : Order) (world : World σ) (files : FileTree) :
    view (opening env order world files).world.shared = view world.shared := by
  simp only [opening, world_prepareCapture, throttle]
  split
  · exact h.throttle _ _ _ (begun world)
  · rfl

/-- A run leaves alone what its routines leave alone. -/
theorem view_run (steps : List Step) (order : Order) (bound : Nat) (world : World σ)
    (files : FileTree) :
    view (run env steps order bound world files).2.world.shared = view world.shared := by
  simp only [run]
  obtain ⟨log, outcomes, hclosing⟩ := closing_eq env steps
    (loop env order.capturing steps bound (opening env order world files)).1
    (loop env order.capturing steps bound (opening env order world files)).2
  rw [hclosing]
  exact (view_loop h order.capturing steps bound _).trans (view_opening h order world files)

end

open Ledger

/-- A host whose browser keeps a ledger. -/
def Host.recorded (host : Host δ) : Host (Ledger δ) :=
  { host with browser := host.browser.recorded }

section

variable (host : Host δ) (config : Config)

/-- The waits of a step for several elements. -/
def workers {τ : Type} (scale : TimeScale τ) (session : Session σ) (step : Step) :
    List (Command.Routine σ Wait.Slot) :=
  step.selectors.map (Wait.worker scale session step.selectorKind (.whole step.timeoutSeconds)
    scale.interval true)

theorem withWorkers_ofAction {τ : Type} (scale : TimeScale τ) (session : Session σ)
    (action : Action) (step : Step) :
    (Handler.ofAction ⟨scale, session⟩ action step).withWorkers (workers scale session step) =
      Handler.ofAction ⟨scale, session⟩ action step := by
  have hseveral (needsAll : Bool) :
      (Handler.several ⟨scale, session⟩ needsAll step).withWorkers (workers scale session step) =
        Handler.several ⟨scale, session⟩ needsAll step := by
    unfold Handler.several
    simp only
    split
    · rfl
    · split <;> rfl
  cases action with
  | waitAll => exact hseveral true
  | waitAny => exact hseveral false
  | sleep =>
      simp only [Handler.ofAction, Handler.sleep]
      split <;> rfl
  | _ => rfl

/-- No step opens or closes the browser. -/
theorem related_recorded (step : Step) :
    (activity (host.recorded.env config) step).Related Spares Spares
      (activity (host.env config) step) := by
  simp only [Host.env, Handler.activity_full]
  split
  · exact .alone (spares_congruence.done _)
  · have hsession := related_exclusive_spares host.browser
    rw [← withWorkers_ofAction .binary (Session.exclusive host.recorded.browser)]
    refine Handler.related_ofAction spares_congruence hsession .binary step step.action ?_
    rw [workers, List.forall₂_map_left_iff, List.forall₂_map_right_iff]
    exact List.forall₂_same.mpr fun selector _ =>
      Wait.related_worker spares_congruence hsession .binary _ _ _ _ selector

/-- A run with a ledger is the run itself. -/
theorem shadows_recorded :
    (host.recorded.env config).Shadows unrecorded (host.env config) where
  activity step :=
    ((related_recorded host config step).imp (fun _ _ => id) fun _ _ related =>
      related.shadows).shadows fun _ _ related => related.shadows
  screenshot := (related_exclusive_spares host.browser).screenshot.shadows
  throttle latency download upload :=
    ((related_exclusive_spares host.browser).throttle latency download upload).shadows
  settings := rfl
  base := rfl
  turns := rfl

theorem life_activity (step : Step) (w : World (Owned (Ledger δ))) :
    lifeOf ((activity (host.recorded.env config) step).run host.bound w).2.shared =
      lifeOf w.shared := by
  have hrelated := related_recorded host config step
  generalize activity (host.recorded.env config) step = activity' at hrelated
  generalize activity (host.env config) step = activity at hrelated
  cases hrelated with
  | alone related =>
      have halone := related.life_runAlone w
      simp only [Activity.run]
      rcases hran : Routine.runAlone _ w with ⟨_ | v, later⟩ <;> rw [hran] at halone <;>
        exact halone
  | together related judge selectors =>
      rw [world_run_together]
      exact Spares.life_runTogether related host.bound w
  | rest micros ended woken interrupted =>
      rcases Activity.rest_passes micros host.bound ended woken interrupted w
        with ⟨last, hlast⟩ | hlast
      · rw [hlast]
        rfl
      · rw [hlast]

theorem preserves_recorded : (host.recorded.env config).Preserves lifeOf where
  activity step w := life_activity host config step w
  screenshot w := (related_exclusive_spares host.browser).screenshot.life_runAlone w
  throttle latency download upload w :=
    ((related_exclusive_spares host.browser).throttle latency download upload).life_runAlone w

/-- What an opened session adds to the ledger, whatever it is used for. -/
theorem accounts_opened {α : Type} {use : World (Owned (Ledger δ)) → α × World (Owned (Ledger δ))}
    (leaves : ∀ w, (lifeOf w.shared).holding = .complete →
      Leaves (lifeOf w.shared) (lifeOf (use w).2.shared))
    (w : World (Owned (Ledger δ))) :
    let ended := Session.opened host.recorded.browser config.window use w
    ∃ entries, vital ended.2.shared.browser.entries =
        vital w.shared.browser.entries ++ entries ∧
      Accounts config.window ended.1.isOk entries := by
  obtain ⟨n, bound, m, bound', answered, entries⟩ := life_opened host.browser config.window leaves w
  exact ⟨_, entries.trans (List.append_assoc ..), .of_course ⟨n, bound, m, bound', answered, rfl⟩⟩

theorem use_map (steps : List Step) (order : Order) (files : FileTree)
    (w : World (Owned (Ledger δ))) :
    host.use config steps order files (w.map unrecorded) =
      ((host.recorded.use config steps order files w).1,
        (host.recorded.use config steps order files w).2.map unrecorded) := by
  simp only [Host.use]
  rw [show host.bound = host.recorded.bound from rfl, run_map (shadows_recorded host config)]
  rfl

theorem leaves_use (steps : List Step) (order : Order) (files : FileTree)
    (w : World (Owned (Ledger δ))) :
    Leaves (lifeOf w.shared)
      (lifeOf (host.recorded.use config steps order files w).2.shared) := by
  have hlife : lifeOf (host.recorded.use config steps order files w).2.shared = lifeOf w.shared :=
    view_run (preserves_recorded host config) steps order host.bound w files
  rw [hlife]
  exact .alone

/-- Whether a browser is given back. However a session is used, and whichever commands of its
browser fail, the ledger says: a session that is open was started and launched once, and closes its
browser once; it stops it once if the close is granted, and else not at all. A session that could
not be opened gives nothing back. So everything is given back exactly if nothing was started, or if
the session was open and its browser could be closed. A run in a browser of its own is such a use,
and is the same run without the ledger. -/
theorem opened_givenBack :
    (∀ {α : Type} (use : World (Owned (Ledger δ)) → α × World (Owned (Ledger δ))),
      (∀ w, (lifeOf w.shared).holding = .complete →
        Leaves (lifeOf w.shared) (lifeOf (use w).2.shared)) →
      ∀ w, let ended := Session.opened host.recorded.browser config.window use w
        ∃ entries, vital ended.2.shared.browser.entries =
            vital w.shared.browser.entries ++ entries ∧
          Accounts config.window ended.1.isOk entries) ∧
    ∀ (steps : List Step) (order : Order) (world : World (Owned δ)) (files : FileTree),
      let ended := runOpened host.recorded config steps order (world.map blank) files
      runOpened host config steps order world files =
        (ended.1, ended.2.1.map unrecorded, ended.2.2) ∧
      Accounts config.window ended.1.isOk (vital ended.2.1.shared.browser.entries) := by
  refine ⟨fun use leaves w => accounts_opened host config leaves w,
    fun steps order world files => ?_⟩
  obtain ⟨entries, hentries, haccounts⟩ := accounts_opened host config
    (fun w _ => leaves_use host config steps order files w) (world.map blank)
  have hmap : Session.opened host.browser config.window (host.use config steps order files) world =
      ((Session.opened host.recorded.browser config.window
        (host.recorded.use config steps order files) (world.map blank)).1,
      (Session.opened host.recorded.browser config.window
        (host.recorded.use config steps order files) (world.map blank)).2.map unrecorded) :=
    opened_map host.browser config.window (use_map host config steps order files) (world.map blank)
  simp only [runOpened, hmap]
  generalize Session.opened host.recorded.browser config.window
    (host.recorded.use config steps order files) (world.map blank) = ended at hentries haccounts ⊢
  obtain ⟨answer, later⟩ := ended
  have hall : vital later.shared.browser.entries = entries := hentries
  cases answer with
  | error e => exact ⟨rfl, hall ▸ haccounts⟩
  | ok answer => exact ⟨rfl, hall ▸ haccounts⟩

end

theorem closed_early_givenBack :
    let host : Host Unit := ⟨promptBrowser, ⟨0⟩, 0⟩
    let use (w : World (Owned (Ledger Unit))) := (Session.close host.recorded.browser).runToEnd w
    let w : World (Owned (Ledger Unit)) := { shared := Owned.fresh ⟨(), []⟩ }
    let ended := Session.opened host.recorded.browser (Config.window {}) use w
    ∃ entries, vital ended.2.shared.browser.entries = vital w.shared.browser.entries ++ entries ∧
      Accounts (Config.window {}) ended.1.isOk entries :=
  (opened_givenBack ⟨promptBrowser, ⟨0⟩, 0⟩ {}).1 _
    (fun _ complete => leaves_close promptBrowser complete) _

/-- A browser that refuses one command and grants all others. -/
def refusingBrowser (refused : Command) : Browser Unit where
  call command _ d :=
    (⟨none, fun _ d => (⟨false, if command = refused then .error (.browser "Error" "refused")
      else .ok .nothing⟩, d)⟩, d)

/-- A browser that opens no context is not given back, and one that cannot be closed is not stopped.
-/
theorem refused_not_givenBack :
    let ledger (refused : Command) :=
      let host : Host (Ledger Unit) := ⟨(refusingBrowser refused).recorded, ⟨0⟩, 0⟩
      (runOpened host {} [] {} { shared := Owned.fresh ⟨(), []⟩ } {}).2.1.shared.browser.entries
    ¬ GivenBack {} (ledger (.newContext 1280 720)) ∧ ¬ GivenBack {} (ledger .closeBrowser) := by
  decide +kernel

end BrowserSteps.Run
