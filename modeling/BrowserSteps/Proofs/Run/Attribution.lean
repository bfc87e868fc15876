import BrowserSteps.Proofs.Result.Log
import BrowserSteps.Proofs.Run.Recording

/-!
To which outcome the lines of the log belong. An outcome takes the lines that the log has gained
since its step began, whatever line breaks they came with, so the outcomes of a run that the
deadline did not cut share out the log between them. Only the cancellation of a run has lines that
belong to no outcome.
-/

namespace BrowserSteps.Run

variable {σ : Type} {env : Env σ} {capturing : Bool} {steps : List Step}

/-- The messages of outcomes, in order. -/
def messagesOf (outcomes : List Outcome) : List String := outcomes.flatMap (·.messages)

/-- The lines of the log are those of the outcomes. -/
def State.Attributed (s : State σ) : Prop := messagesOf s.result.outcomes = s.result.log.lines

/-- An execution that is not cut adds to the outcomes the lines that it adds to the log. -/
theorem Executes.attributed {e : Execution σ} {ending : StepEnd} {t : State σ}
    (h : Executes env capturing e ending t) (uncut : ending ≠ .cut)
    (attributed : e.start.Attributed) : t.Attributed := by
  cases h with
  | ended v world unsaved s answered captured _ state_eq =>
      have hlines := Log.lines_mono (follows_captured answered captured).entries
      have houtcomes := outcomes_captured captured
      unfold State.Attributed messagesOf at attributed ⊢
      subst state_eq
      -- what the outcome takes is what the lines before it lack
      simp only [State.record, RunResult.record, endedOutcome, houtcomes, List.flatMap_append,
        attributed, List.flatMap_singleton]
      exact List.prefix_iff_eq_append.mp hlines
  | cutInCapture _ _ _ _ ending_eq => exact absurd ending_eq uncut
  | cutInActivity _ _ _ ending_eq => exact absurd ending_eq uncut
  | unfinished world answered _ state_eq =>
      rw [state_eq, markStart_eq]
      exact attributed

/-- How the lines of the log belong to outcomes when the executions are over. -/
def Attribution (env : Env σ) (steps : List Step) (s : State σ) : End → Prop
  | .finished | .stopped | .unfinished => s.Attributed
  | .cancelled => ∃ (before : State σ) (step : Step), steps[before.next]? = some step ∧
      before.Attributed ∧ s = before.note env step.name Handler.cancelled
  | .cut => (∃ step, steps[s.next]? = some step) ∧
      messagesOf s.result.outcomes <+: s.result.log.lines

theorem Course.attribution {s u : State σ} {es : List (Execution σ)} {reason : End}
    (h : Course env capturing steps s es reason u) (attributed : s.Attributed) :
    Attribution env steps u reason := by
  induction h with
  | finished | bounded => exact attributed
  | cancelled here => exact ⟨_, _, here, attributed, rfl⟩
  | next start _ _ executed _ ih =>
      subst start
      exact ih ((Executes.of_executed executed).attributed (by simp) attributed)
  | stopped start _ _ executed =>
      subst start
      exact (Executes.of_executed executed).attributed (by simp) attributed
  | waiting start _ executed =>
      subst start
      exact (Executes.of_executed executed).attributed (by simp) attributed
  | @cut s t e start here _ executed =>
      subst start
      have executes := Executes.of_executed executed
      have hnext : steps[t.next]? = some e.step := executes.follows.next ▸ here
      refine ⟨⟨e.step, hnext⟩, ?_⟩
      rw [executes.outcomes_of_cut, attributed]
      exact Log.lines_mono executes.follows.entries

/-- The messages of the outcomes of every run, against the lines of its log. Unless the run was
cancelled or cut, the messages are the lines. The entry of a cancellation belongs to no outcome,
and neither does the empty line before it that a line break at the end of the log makes. When the
deadline cut the last step, the messages of the others begin the log. -/
theorem run_messages (env : Env σ) (steps : List Step) (order : Order) (bound : Nat)
    (world : World σ) (files : FileTree) :
    let ended := run env steps order bound world files
    let r := ended.2.result
    match ended.1 with
    | .finished | .stopped | .unfinished => r.log.lines = messagesOf r.outcomes
    | .cancelled => ∃ (step : Step) (before : Log), steps[ended.2.next]? = some step ∧
        r.log = before.append (Log.entry (ended.2.now env) step.name Handler.cancelled) ∧
        before.lines = messagesOf r.outcomes ∧
        r.log.lines = messagesOf r.outcomes ++ before.gap ++
          Text.splitLines (Log.entry (ended.2.now env) step.name Handler.cancelled)
    | .cut => messagesOf r.outcomes.dropLast <+: r.log.lines := by
  intro ended r
  obtain ⟨u, hcourse, hended⟩ := run_course env steps order bound world files
  have hfresh := opening_fresh env order world files
  have hattributed : (opening env order world files).Attributed := by
    simp only [State.Attributed, hfresh.outcomes, hfresh.log]
    rfl
  have hattribution : Attribution env steps u ended.1 := hcourse.attribution hattributed
  have hclosed (reason : End) (uncut : reason ≠ .cut) (hreason : ended.1 = reason) :
      r.log = u.result.log ∧ r.outcomes = u.result.outcomes ∧ ended.2.next = u.next ∧
        ended.2.now env = u.now env := by
    have hr : ended.2 = closing env steps reason u := hreason ▸ hended
    simp only [r, hr, closing_of_uncut env steps uncut, State.now, and_self]
  cases hreason : ended.1 with
  | finished | stopped | unfinished =>
      obtain ⟨hlog, houtcomes, _⟩ := hclosed _ (by simp) hreason
      rw [hreason] at hattribution
      rw [hlog, houtcomes]
      exact hattribution.symm
  | cancelled =>
      obtain ⟨hlog, houtcomes, hnext, hnow⟩ := hclosed _ (by simp) hreason
      rw [hreason] at hattribution
      obtain ⟨before, step, here, attributed, rfl⟩ := hattribution
      refine ⟨step, before.result.log, hnext ▸ here, hlog.trans (by rw [hnow]; rfl), ?_, ?_⟩
      · rw [houtcomes]
        exact attributed.symm
      · rw [hlog, houtcomes, hnow]
        have hlines := before.result.log.lines_append
          (Log.entry (before.now env) step.name Handler.cancelled)
        rw [← attributed] at hlines
        exact hlines
  | cut =>
      rw [hreason] at hattribution
      obtain ⟨⟨step, here⟩, told⟩ := hattribution
      have hr : ended.2 = closing env steps .cut u := hreason ▸ hended
      simp only [r, hr, closing, recordCut, here, if_true, State.record, State.note,
        RunResult.record, RunResult.note, List.dropLast_concat]
      exact told.trans (Log.lines_prefix_append _ _)

/-- A session whose scripts answer a text that ends with a line break, and cancel the run. -/
def cancellingSession : Session Unit where
  navigate _ := .done (.ok ())
  find _ _ := .done (.ok none)
  children _ _ := .done (.ok [])
  click _ := .done (.ok ())
  setText _ _ := .done (.ok ())
  getText _ := .done (.ok none)
  runScript _ := .act (fun w => { shared := w.shared, cancels := true })
    fun _ => .done (.ok (.text "x\n"))
  screenshot := .done (.ok [])
  throttle _ _ _ := .done (.ok ())

/-- The empty line before the entry of a cancellation is told by nobody. -/
theorem lines_untold_at_cancellation :
    let env := Env.full .binary cancellingSession {} ⟨0⟩ 0
    let steps : List Step := [{ name := "a", action := .script }, { name := "b", action := .noop }]
    let ended := run env steps {} 2 { shared := () } {}
    let r := ended.2.result
    ended.1 = .cancelled ∧
      r.log.lines = ["1-01-01 00:00:00: Step [a] x", "",
        "1-01-01 00:00:00: Step [b] run cancelled"] ∧
      r.log.lines ≠ messagesOf r.outcomes ++
        Text.splitLines (Log.entry (ended.2.now env) "b" Handler.cancelled) := by
  decide +kernel

end BrowserSteps.Run
