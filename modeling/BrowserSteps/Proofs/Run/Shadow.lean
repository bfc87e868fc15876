import BrowserSteps.Proofs.Routine.Shadow
import BrowserSteps.Run.Interpreter

/-!
Runs that take notes. If the activities and the commands of one environment shadow those of another,
then a run in the first is a run in the second with notes in its shared state: it ends for the same
reason, with the same result and the same files.
-/

namespace BrowserSteps.Run

variable {σ τ : Type}

/-- The state of a run with its shared state seen through a function. -/
def State.map (seen : τ → σ) (s : State τ) : State σ := { s with world := s.world.map seen }

/-- An environment that does what another does, as far as it can be seen. -/
structure Env.Shadows (seen : τ → σ) (env' : Env τ) (env : Env σ) : Prop where
  activity : ∀ step, (activity env' step).Shadows seen (activity env step)
  screenshot : env'.session.screenshot.Shadows seen env.session.screenshot
  throttle : ∀ latency download upload,
    (env'.session.throttle latency download upload).Shadows seen
      (env.session.throttle latency download upload)
  settings : env'.settings = env.settings
  base : env'.base = env.base
  turns : env'.turns = env.turns

section

variable {seen : τ → σ} {env' : Env τ} {env : Env σ}

theorem now_map (h : env'.Shadows seen env) (s : State τ) : (s.map seen).now env = s.now env' := by
  simp only [State.now, h.base]
  rfl

theorem note_map (h : env'.Shadows seen env) (name message : String) (s : State τ) :
    (s.map seen).note env name message = (s.note env' name message).map seen := by
  simp only [State.note, now_map h]
  rfl

theorem noteAll_map (h : env'.Shadows seen env) (name : String) (messages : List String)
    (s : State τ) :
    (s.map seen).noteAll env name messages = (s.noteAll env' name messages).map seen := by
  induction messages generalizing s with
  | nil => rfl
  | cons message rest ih =>
      simp only [State.noteAll, List.foldl_cons] at ih ⊢
      rw [note_map h, ih]

theorem markStart_map (h : env'.Shadows seen env) (step : Step) (s : State τ) :
    markStart env step (s.map seen) = (markStart env' step s).map seen := by
  simp only [markStart, now_map h]
  split <;> rfl

theorem markFinish_map (h : env'.Shadows seen env) (step : Step) (stop : Bool) (s : State τ) :
    markFinish env step stop (s.map seen) =
      ((markFinish env' step stop s).1, (markFinish env' step stop s).2.map seen) := by
  simp only [markFinish, now_map h]
  split <;> rfl

theorem saveScreenshot_map (h : env'.Shadows seen env) (name : String) (s : State τ) :
    saveScreenshot env name (s.map seen) =
      ((saveScreenshot env' name s).1, (saveScreenshot env' name s).2.map seen) := by
  simp only [saveScreenshot, now_map h, show (s.map seen).directory = s.directory from rfl,
    show (s.map seen).world = s.world.map seen from rfl, h.screenshot.runAlone_eq]
  cases s.directory with
  | none => rfl
  | some directory =>
      rcases env'.session.screenshot.runAlone s.world with ⟨_ | e | bytes, world⟩
      · rfl
      · rfl
      · simp only [show (s.map seen).files = s.files from rfl]
        cases s.files.writeBytes _ bytes <;> rfl

theorem capture_map (h : env'.Shadows seen env) (name : String) (s : State τ) :
    capture env name (s.map seen) =
      ((capture env' name s).1, (capture env' name s).2.map seen) := by
  simp only [capture, saveScreenshot_map h]
  rcases saveScreenshot env' name s with ⟨(e | path) | _, t⟩
  · simp only [note_map h]
  · rfl
  · rfl

theorem markCapture_map (h : env'.Shadows seen env) (capturing : Bool) (step : Step) (s : State τ) :
    markCapture env capturing step (s.map seen) =
      ((markCapture env' capturing step s).1, (markCapture env' capturing step s).2.map seen) := by
  simp only [markCapture, capture_map h]
  split
  · rcases capture env' step.name s with ⟨path | _, t⟩ <;> rfl
  · rfl

theorem endedOutcome_map (h : env'.Shadows seen env) (step : Step) (before : Nat)
    (startedAt : DateTime) (failed : Bool) (s : State τ) :
    endedOutcome env step before startedAt failed (s.map seen) =
      endedOutcome env' step before startedAt failed s := by
  simp only [endedOutcome, now_map h]
  rfl

theorem conclude_map (h : env'.Shadows seen env) (capturing : Bool) (step : Step) (before : Nat)
    (startedAt : DateTime) (v : Verdict) (s : State τ) :
    conclude env capturing step before startedAt v (s.map seen) =
      ((conclude env' capturing step before startedAt v s).1,
        (conclude env' capturing step before startedAt v s).2.map seen) := by
  simp only [conclude, noteAll_map h, markFinish_map h, markCapture_map h]
  rcases markCapture env' capturing step _ with ⟨unsaved | _, t⟩
  · simp only [endedOutcome_map h]
    rfl
  · rfl

theorem execute_map (h : env'.Shadows seen env) (capturing : Bool) (step : Step) (s : State τ) :
    execute env capturing step (s.map seen) =
      ((execute env' capturing step s).1, (execute env' capturing step s).2.map seen) := by
  simp only [execute, markStart_map h, now_map h, ← h.turns,
    show ((markStart env' step s).map seen).world = (markStart env' step s).world.map seen from rfl,
    (h.activity step).run_eq]
  rcases (activity env' step).run env'.turns (markStart env' step s).world with
    ⟨v | entries | _, world⟩
  · exact conclude_map h capturing step _ _ v { markStart env' step s with world }
  · exact congrArg _ (noteAll_map h step.name entries { markStart env' step s with world })
  · rfl

theorem loop_map (h : env'.Shadows seen env) (capturing : Bool) (steps : List Step) (bound : Nat)
    (s : State τ) :
    loop env capturing steps bound (s.map seen) =
      ((loop env' capturing steps bound s).1, (loop env' capturing steps bound s).2.map seen) := by
  induction bound generalizing s with
  | zero => rfl
  | succ bound ih =>
      simp only [loop, show (s.map seen).next = s.next from rfl]
      cases steps[s.next]? with
      | none => rfl
      | some step =>
          simp only [show (s.map seen).world.cancelled = s.world.cancelled from rfl, note_map h,
            execute_map h]
          split
          · rfl
          · rcases execute env' capturing step s with ⟨jump | _ | _ | _, t⟩
            · exact ih (advance jump t)
            · rfl
            · rfl
            · rfl

theorem recordCut_map (h : env'.Shadows seen env) (steps : List Step) (s : State τ) :
    recordCut env steps (s.map seen) = (recordCut env' steps s).map seen := by
  simp only [recordCut, show (s.map seen).next = s.next from rfl, note_map h]
  cases steps[s.next]? with
  | none => rfl
  | some step =>
      simp only [cutOutcome, now_map h]
      rfl

theorem throttle_map (h : env'.Shadows seen env) (s : State τ) :
    throttle env (s.map seen) = (throttle env' s).map seen := by
  simp only [throttle, h.settings, show (s.map seen).world = s.world.map seen from rfl,
    (h.throttle _ _ _).runAlone_eq]
  split <;> rfl

theorem prepareCapture_map (h : env'.Shadows seen env) (startedAt : DateTime) (capturing : Bool)
    (s : State τ) :
    prepareCapture startedAt env capturing (s.map seen) =
      (prepareCapture startedAt env' capturing s).map seen := by
  cases capturing with
  | false => rfl
  | true =>
      simp only [prepareCapture, if_true, h.settings, openDirectory,
        show (s.map seen).files = s.files from rfl, show (s.map seen).result = s.result from rfl]
      generalize s.files.makeDirectories _ = made
      obtain ⟨result, files⟩ := made
      cases result <;> rfl

theorem opening_map (h : env'.Shadows seen env) (order : Order) (world : World τ)
    (files : FileTree) :
    opening env order (world.map seen) files = (opening env' order world files).map seen := by
  let begun : State τ := {
    world := { world with
      cancelled := false, deadline := none
      cancelAt := world.cancelAt.filter (world.clock ≤ ·) }
    files
    result := { tag := order.tag, startedAt := some (env'.base.add world.clock) } }
  have hopened : prepareCapture (env.base.add world.clock) env order.capturing
      (throttle env (begun.map seen)) =
        (prepareCapture (env'.base.add world.clock) env' order.capturing
          (throttle env' begun)).map seen := by
    rw [throttle_map h, prepareCapture_map h, h.base]
  simp only [opening, ← h.base, ← h.settings] at hopened ⊢
  exact congrArg (fun s : State σ =>
    { s with world := { s.world with deadline := deadlineFrom env'.settings s.world.clock } }) hopened

theorem closing_map (h : env'.Shadows seen env) (steps : List Step) (reason : End) (s : State τ) :
    closing env steps reason (s.map seen) = (closing env' steps reason s).map seen := by
  simp only [closing, recordCut_map h]
  split <;> simp only [now_map h] <;> rfl

/-- A run in an environment that takes notes is a run in the other, with its notes. -/
theorem run_map (h : env'.Shadows seen env) (steps : List Step) (order : Order) (bound : Nat)
    (world : World τ) (files : FileTree) :
    run env steps order bound (world.map seen) files =
      ((run env' steps order bound world files).1,
        (run env' steps order bound world files).2.map seen) := by
  simp only [run, opening_map h, loop_map h, closing_map h]

end

end BrowserSteps.Run
