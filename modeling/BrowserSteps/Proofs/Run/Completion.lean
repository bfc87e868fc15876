import BrowserSteps.Proofs.Routine.Completion
import BrowserSteps.Proofs.Run.History
import BrowserSteps.Proofs.Run.Verdict

/-!
Steps come to an end. If the queries of a session are orderly, so are the waits of a step, and with
turns enough no step is left unfinished. A run that is still unfinished then has made as many
executions as it may.
-/

namespace BrowserSteps

variable {σ τ : Type}

theorem Wait.orderly_poll (p : Plan τ) {query : Command.Routine σ (Option ElementRef)}
    (h : query.Orderly false) (start bound : Nat) : (poll p query start bound).Orderly false := by
  induction bound with
  | zero => exact fun _ => rfl
  | succ bound ih =>
      refine h.bind fun found => ?_
      intro w
      simp only [Routine.bind]
      cases p.verdict found (p.scale.ofMicros (w.clock - start)) w.cancelled with
      | inl located => rfl
      | inr pause => exact ih

theorem Wait.orderly_element (scale : TimeScale τ) {session : Session σ} {kind : SelectorKind}
    {selector : String} (h : (session.find kind selector).Orderly false) (limit : Number)
    (interval : τ) (heeds : Bool) :
    (element scale session kind selector limit interval heeds).Orderly false := by
  intro w
  change Routine.Orderly (if _ then _ else _) false
  split
  · rfl
  · cases scale.limit? limit with
    | none => rfl
    | some limit =>
        refine (orderly_poll _ h _ _).bind fun located => ?_
        rfl

theorem Wait.orderly_worker (scale : TimeScale τ) {session : Session σ} {kind : SelectorKind}
    {selector : String} (h : (session.find kind selector).Orderly false) (limit : Number)
    (interval : τ) (heeds : Bool) :
    (worker scale session kind limit interval heeds selector).Orderly false := by
  intro before
  refine (orderly_element scale h limit interval heeds).bind fun result => ?_
  exact fun after => rfl

namespace Activity

/-- The routines that an activity runs at once are orderly. -/
def Orderly : Activity σ → Prop
  | .together workers _ _ => ∀ r ∈ workers, r.Orderly false
  | .alone _ | .rest .. => True

theorem restUntil_ne_unfinished (time : Nat) (ended woken : Verdict) (interrupted : String)
    (w : World σ) : (restUntil time ended woken interrupted w).1 ≠ .unfinished := by
  unfold restUntil
  split
  · simp
  · simp only
    split <;> simp

/-- An activity comes to an end, given enough turns, and more turns change nothing. -/
theorem Orderly.completes {activity : Activity σ} (h : activity.Orderly) (w : World σ) :
    ∃ enough, (activity.run enough w).1 ≠ .unfinished ∧
      ∀ turns ≥ enough, activity.run turns w = activity.run enough w := by
  cases activity with
  | alone routine =>
      refine ⟨0, ?_, fun _ _ => rfl⟩
      simp only [run]
      split <;> simp
  | together workers judge selectors =>
      obtain ⟨enough, ⟨close, later⟩, finished, hclose⟩ := Routine.runTogether_completes h w
      refine ⟨enough, ?_, fun turns hturns => ?_⟩
      · simp only [run, hclose enough le_rfl]
        cases close with
        | ended results | cut => simp
        | unfinished => exact absurd rfl finished
      · simp only [run, hclose enough le_rfl, hclose turns hturns]
  | rest micros ended woken interrupted =>
      refine ⟨0, ?_, fun _ _ => by cases micros <;> rfl⟩
      cases micros with
      | zero => simp [run]
      | succ micros => exact restUntil_ne_unfinished _ ended woken interrupted w

end Activity

namespace Handler

theorem orderly_activity (scale : TimeScale τ) {session : Session σ}
    (h : ∀ kind value, (session.find kind value).Orderly false) (settings : RunSettings)
    (base : DateTime) (turns : Nat) (step : Step) :
    (Run.activity (.full scale session settings base turns) step).Orderly := by
  have hseveral (needsAll : Bool) : (several ⟨scale, session⟩ needsAll step).Orderly := by
    simp only [several]
    split
    · trivial
    · split
      · trivial
      · intro r member
        obtain ⟨selector, -, rfl⟩ := List.mem_map.mp member
        exact Wait.orderly_worker scale (h step.selectorKind selector) _ _ true
  have hsleep : (sleep step : Activity σ).Orderly := by
    unfold sleep
    simp only
    split <;> trivial
  rw [activity_full]
  cases step.action with
  | waitAll => exact hseveral true
  | waitAny => exact hseveral false
  | sleep => exact hsleep
  | invalid | noop | openPage | fill | click | check | select | script | jump => trivial

end Handler

namespace Run

variable {env : Env σ}

/-- With turns enough the execution of a step ends, and more turns change nothing. -/
theorem execute_completes (capturing : Bool) {step : Step} (h : (activity env step).Orderly)
    (s : State σ) :
    ∃ enough ending t, ending ≠ .unfinished ∧
      ∀ turns ≥ enough, execute { env with turns } capturing step s = (ending, t) := by
  obtain ⟨enough, finished, hactivity⟩ := h.completes s.world
  have hexecute (turns : Nat) (hturns : turns ≥ enough) :
      execute { env with turns } capturing step s =
        execute { env with turns := enough } capturing step s := by
    have hsame : (activity { env with turns } step).run turns s.world =
        (activity { env with turns := enough } step).run enough s.world := hactivity turns hturns
    simp only [execute, world_markStart, hsame]
    rfl
  cases hexecuted : execute { env with turns := enough } capturing step s with
  | mk ending t =>
      refine ⟨enough, ending, t, ?_, fun turns hturns => (hexecute turns hturns).trans hexecuted⟩
      rintro rfl
      cases Executes.of_executed (e := ⟨step, s⟩) hexecuted with
      | ended v _ _ _ _ _ ending_eq => exact (ending_of_verdict v ending_eq).2 rfl
      | cutInCapture _ _ _ _ ending_eq | cutInActivity _ _ _ ending_eq => cases ending_eq
      | unfinished world answered => exact finished (congrArg Prod.fst answered)

/-- With turns enough the loop is unfinished only if it has made all the executions that it may. -/
theorem loop_completes (env : Env σ) (capturing : Bool) {steps : List Step}
    (h : ∀ step ∈ steps, (activity env step).Orderly) (bound : Nat) (s : State σ) :
    ∃ enough, ∀ turns ≥ enough,
      (loop { env with turns } capturing steps bound s).1 = .unfinished →
        (executions { env with turns } capturing steps bound s).length = bound := by
  induction bound generalizing s with
  | zero => exact ⟨0, fun _ _ _ => rfl⟩
  | succ bound ih =>
      cases hstep : steps[s.next]? with
      | none => exact ⟨0, fun _ _ => by simp [loop, hstep]⟩
      | some step =>
          cases hcancelled : s.world.cancelled with
          | true => exact ⟨0, fun _ _ => by simp [loop, hstep, hcancelled]⟩
          | false =>
              obtain ⟨enough, ending, t, finished, hexecute⟩ :=
                execute_completes capturing (h step (List.mem_of_getElem? hstep)) s
              cases ending with
              | goOn jump =>
                  obtain ⟨more, honward⟩ := ih (advance jump t)
                  refine ⟨max enough more, fun turns hturns => ?_⟩
                  have hnow := hexecute turns (le_trans (le_max_left _ _) hturns)
                  have hlater := honward turns (le_trans (le_max_right _ _) hturns)
                  simpa [loop, executions, hstep, hcancelled, hnow] using hlater
              | stop | cut =>
                  refine ⟨enough, fun turns hturns => ?_⟩
                  simp [loop, hstep, hcancelled, hexecute turns hturns]
              | unfinished => exact absurd rfl finished

theorem opening_turns (env : Env σ) (turns : Nat) (order : Order) (world : World σ)
    (files : FileTree) :
    opening { env with turns } order world files = opening env order world files := by
  simp only [opening, throttle, prepareCapture]

/-- With turns enough a run is unfinished only if it has made all the executions that it may. -/
def Completes (env : Env σ) (steps : List Step) (order : Order) (bound : Nat) (world : World σ)
    (files : FileTree) : Prop :=
  ∃ enough, ∀ turns ≥ enough,
    (run { env with turns } steps order bound world files).1 = .unfinished →
      (history { env with turns } steps order bound world files).length = bound

theorem run_completes (env : Env σ) {steps : List Step}
    (h : ∀ step ∈ steps, (activity env step).Orderly) (order : Order) (bound : Nat)
    (world : World σ) (files : FileTree) : Completes env steps order bound world files := by
  obtain ⟨enough, hloop⟩ :=
    loop_completes env order.capturing h bound (opening env order world files)
  refine ⟨enough, fun turns hturns => ?_⟩
  simp only [run, history, opening_turns]
  exact hloop turns hturns

end Run

end BrowserSteps
