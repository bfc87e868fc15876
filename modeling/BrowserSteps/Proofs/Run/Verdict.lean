import BrowserSteps.Proofs.Routine.Clock
import BrowserSteps.Proofs.Run.History

/-!
The verdicts that steps come to when all actions are registered. A verdict passes in silence,
fails with an entry that says why, tells what a script answered, jumps, or reports on several
waits. A failure stops the run exactly if the step says so, and nothing else stops it.
-/

namespace BrowserSteps

variable {σ τ : Type}

/-- Verdicts that pass in silence or fail with one entry. -/
inductive Verdict.Plain (step : Step) : Verdict → Prop where
  | passed : Plain step .passed
  | failure (entry : String) : Plain step (.failure step entry)

/-- A sequence answers what its second part can answer. -/
theorem Routine.Yields.bind {α β : Type} {p : β → Prop} {f : α → Routine σ β}
    (h : ∀ value, (f value).Yields p) (r : Routine σ α) : (r.bind f).Yields p := by
  induction r with
  | done value => exact h value
  | act change next ih => exact fun w => ih w
  | pause micros next ih => exact ih
  | acquire next ih => exact ih
  | release next ih => exact ih

theorem Routine.Yields.imp {α : Type} {p q : α → Prop} (hpq : ∀ value, p value → q value)
    {r : Routine σ α} (h : r.Yields p) : r.Yields q := by
  induction r with
  | done value => exact hpq value h
  | act change next ih => exact fun w => ih w (h w)
  | pause micros next ih => exact ih h
  | acquire next ih => exact ih h
  | release next ih => exact ih h

/-- The verdict of a single routine is what it answers. -/
theorem Activity.runAlone_of_run {r : Routine σ Verdict} {turns : Nat} {w later : World σ}
    {v : Verdict} (hrun : (Activity.alone r).run turns w = (.verdict v, later)) :
    r.runAlone w = (some v, later) := by
  simp only [run] at hrun
  split at hrun
  next hanswer =>
    cases hrun
    exact hanswer
  next => cases hrun

theorem Routine.Yields.of_run {p : Verdict → Prop} {r : Routine σ Verdict} (h : r.Yields p)
    {turns : Nat} {w later : World σ} {v : Verdict}
    (hrun : (Activity.alone r).run turns w = (.verdict v, later)) : p v :=
  h.of_runAlone (Activity.runAlone_of_run hrun)

namespace Handler

theorem concluding_plain (step : Step) (word : String) (command : Command.Routine σ Unit) :
    (concluding step word command).Yields (Verdict.Plain step) := by
  refine Routine.Yields.bind ?_ command
  intro result
  cases result with
  | ok => exact .passed
  | error e => exact .failure _

theorem withElement_plain (x : Setting σ τ) (step : Step) (word : String)
    {body : ElementRef → Routine σ Verdict}
    (hbody : ∀ element, (body element).Yields (Verdict.Plain step)) :
    (withElement x step word body).Yields (Verdict.Plain step) := by
  refine Routine.Yields.bind ?_ _
  intro result
  cases result with
  | error e => exact .failure _
  | ok located =>
      cases located with
      | found element elapsed => exact hbody element
      | missed reason elapsed => exact .failure _

theorem selectItem_plain (x : Setting σ τ) (step : Step) (items : List ElementRef) :
    (selectItem x step items).Yields (Verdict.Plain step) := by
  induction items with
  | nil => exact .failure _
  | cons item rest ih =>
      refine Routine.Yields.bind ?_ _
      intro result
      cases result with
      | error e => exact .failure _
      | ok text =>
          simp only
          split
          · exact concluding_plain step _ _
          · exact ih

theorem select_plain (x : Setting σ τ) (step : Step) :
    (select x step).Yields (Verdict.Plain step) := by
  apply withElement_plain
  intro element
  refine Routine.Yields.bind ?_ _
  intro result
  cases result with
  | error e => exact .failure _
  | ok items => exact selectItem_plain x step items

theorem check_plain (x : Setting σ τ) (step : Step) :
    (check x step).Yields (Verdict.Plain step) := by
  apply withElement_plain
  intro element
  refine Routine.Yields.bind ?_ _
  intro result
  split
  · exact .failure _
  · exact .passed
  · exact .failure _

/-- A single selector is checked for any text, and fails as the step itself would. -/
theorem check_any_plain (x : Setting σ τ) (step : Step) :
    (check x { step with actionValue := "" }).Yields (Verdict.Plain step) := by
  refine Routine.Yields.imp ?_ (check_plain x { step with actionValue := "" })
  intro v h
  cases h with
  | passed => exact .passed
  | failure entry => exact .failure entry

/-- Whether a step is a jump whose script answers true. -/
def Jumps (session : Session σ) (step : Step) (w : World σ) : Prop :=
  step.action = .jump ∧
    ((session.runScript step.actionValue).runAlone w).1 = some (.ok (.bool true))

/-- The verdicts on a step that begins in a world. -/
inductive Answers (session : Session σ) (step : Step) (w : World σ) : Verdict → Prop where
  | plain {v : Verdict} (plain : Verdict.Plain step v) (stays : ¬ Jumps session step w) :
      Answers session step w v
  | told {value : Datum} {text : String} (action : step.action = .script)
      (some_value : value ≠ .null)
      (answer : ((session.runScript step.actionValue).runAlone w).1 = some (.ok value))
      (said : scriptText value = .ok text) : Answers session step w (.noted text)
  | jumped (jumps : Jumps session step w) :
      Answers session step w { jump := some step.jumpTarget }
  | reported {v : Verdict} {several : Wait.Several}
      (action : step.action = .waitAll ∨ step.action = .waitAny) (plain : Verdict.Plain step v) :
      Answers session step w (v.after several.report)

/-- A verdict jumps exactly after a jump whose script answered true. -/
theorem Answers.jump_eq {session : Session σ} {step : Step} {w : World σ} {v : Verdict}
    (h : Answers session step w v) :
    (Jumps session step w ∧ v.jump = some step.jumpTarget) ∨
      (¬ Jumps session step w ∧ v.jump = none) := by
  cases h with
  | plain plain stays =>
      right
      refine ⟨stays, ?_⟩
      cases plain <;> rfl
  | told action => exact .inr ⟨fun jumps => (by simp [jumps.1] at action), rfl⟩
  | jumped jumps => exact .inl ⟨jumps, rfl⟩
  | reported action plain =>
      right
      refine ⟨fun jumps => (by simp [jumps.1] at action), ?_⟩
      cases plain <;> rfl

/-- Every registered action runs its own handler; an invalid one is refused. -/
theorem activity_full (scale : TimeScale τ) (session : Session σ) (settings : RunSettings)
    (base : DateTime) (turns : Nat) (step : Step) :
    Run.activity (.full scale session settings base turns) step =
      if step.action = .invalid then .alone (.done (.failure step invalidAction))
      else ofAction ⟨scale, session⟩ step.action step := by
  cases haction : step.action <;> simp [Run.activity, haction] <;> rfl

/-- An answer has a text and its verdict follows, or it has none and nobody expects that. -/
theorem withText_cases (step : Step) (value : Datum) (verdict : String → Verdict) :
    (∃ text, scriptText value = .ok text ∧ withText step value verdict = verdict text) ∨
      ∃ e, scriptText value = .error e ∧ withText step value verdict = unexpected step e := by
  unfold withText
  cases scriptText value with
  | ok text => exact .inl ⟨text, rfl, rfl⟩
  | error e => exact .inr ⟨e, rfl, rfl⟩

/-- The verdict on a script: the browser refuses it, it answers nothing, or it answers a value. -/
theorem script_cases (x : Setting σ τ) (step : Step) {w later : World σ} {v : Verdict}
    (hrun : (script x step).runAlone w = (some v, later)) :
    (∃ e, ((x.session.runScript step.actionValue).runAlone w).1 = some (.error e) ∧
        v = .failure step e.summary) ∨
      v = .passed ∨
      ∃ value, value ≠ .null ∧
        ((x.session.runScript step.actionValue).runAlone w).1 = some (.ok value) ∧
        v = withText step value .noted := by
  simp only [script, Routine.runAlone_bind] at hrun
  cases hscript : (x.session.runScript step.actionValue).runAlone w with
  | mk answer after =>
      simp only [hscript] at hrun
      cases answer with
      | none => cases hrun
      | some result =>
          simp only at hrun
          split at hrun
          next e =>
            cases hrun
            exact .inl ⟨e, rfl, rfl⟩
          next =>
            cases hrun
            exact .inr (.inl rfl)
          next value some_value =>
            cases hrun
            exact .inr (.inr ⟨value, some_value, rfl, rfl⟩)

theorem script_answers (x : Setting σ τ) (step : Step) (action : step.action = .script)
    {w later : World σ} {v : Verdict} (hrun : (script x step).runAlone w = (some v, later)) :
    Answers x.session step w v := by
  have stays : ¬ Jumps x.session step w := fun h => by simp [h.1] at action
  rcases script_cases x step hrun with ⟨e, -, rfl⟩ | rfl | ⟨value, some_value, answered, rfl⟩
  · exact .plain (.failure _) stays
  · exact .plain .passed stays
  · rcases withText_cases step value .noted with ⟨text, said, heq⟩ | ⟨e, -, heq⟩
    · exact heq ▸ .told action some_value answered said
    · exact heq ▸ .plain (.failure _) stays

theorem jump_answers (x : Setting σ τ) (step : Step) (action : step.action = .jump)
    {w later : World σ} {v : Verdict} (hrun : (jump x step).runAlone w = (some v, later)) :
    Answers x.session step w v := by
  simp only [jump, Routine.runAlone_bind] at hrun
  cases hscript : (x.session.runScript step.actionValue).runAlone w with
  | mk answer after =>
      simp only [hscript] at hrun
      cases answer with
      | none => cases hrun
      | some result =>
          have hjumps : Jumps x.session step w ↔ result = .ok (.bool true) := by
            simp [Jumps, action, hscript]
          simp only at hrun
          split at hrun
          next =>
            cases hrun
            exact .plain (.failure _) (by simp [hjumps])
          next =>
            cases hrun
            exact .jumped (hjumps.mpr rfl)
          next =>
            cases hrun
            exact .plain .passed (by simp [hjumps])
          next value htrue hfalse =>
            cases hrun
            refine .plain ?_ (by simpa [hjumps] using htrue)
            unfold withText
            split <;> exact .failure _

/-- The judgement on several waits that all ended begins with their report. -/
theorem judge_plain (step : Step) (needsAll isCancelled : Bool) (found : Wait.Several) :
    ∃ v, Verdict.Plain step v ∧
      judge step needsAll isCancelled (.ok found) = v.after found.report := by
  simp only [judge]
  generalize (if needsAll then found.all else found.any) = enough
  cases enough with
  | true => exact ⟨.passed, .passed, rfl⟩
  | false =>
      cases isCancelled with
      | true => exact ⟨_, .failure cancelled, rfl⟩
      | false => exact ⟨_, .failure elementNotFound, rfl⟩

theorem several_answers (x : Setting σ τ) (needsAll : Bool) (step : Step)
    (action : step.action = .waitAll ∨ step.action = .waitAny) {turns : Nat} {w later : World σ}
    {v : Verdict} (hrun : (several x needsAll step).run turns w = (.verdict v, later)) :
    Answers x.session step w v := by
  have stays : ¬ Jumps x.session step w := fun h => by simp [h.1] at action
  simp only [several] at hrun
  split at hrun
  · exact .plain (Routine.Yields.of_run (check_any_plain x step) hrun) stays
  · split at hrun
    · cases hrun
      exact .plain (.failure _) stays
    · simp only [Activity.run] at hrun
      split at hrun
      next results after _ =>
        injection hrun with hverdict
        injection hverdict with hverdict
        subst hverdict
        cases hcollect : Wait.collect step.selectors results with
        | error e => exact .plain (.failure _) stays
        | ok found =>
            obtain ⟨plain, hplain, heq⟩ := judge_plain step needsAll after.cancelled found
            exact heq ▸ .reported action hplain
      next => cases hrun
      next => cases hrun

/-- A rest passes when it is over, and fails when a cancellation ends it. -/
theorem sleep_plain (step : Step) {turns : Nat} {w later : World σ} {v : Verdict}
    (hrun : (sleep step : Activity σ).run turns w = (.verdict v, later)) :
    Verdict.Plain step v := by
  simp only [sleep] at hrun
  split at hrun
  · cases hrun
    exact .failure _
  · rcases Activity.verdict_of_rest hrun with rfl | rfl
    · exact .passed
    · exact .failure _

/-- With all actions registered, every verdict on a step is one of these. -/
theorem verdict_answers (scale : TimeScale τ) (session : Session σ) (settings : RunSettings)
    (base : DateTime) (turns : Nat) (step : Step) {w later : World σ} {v : Verdict}
    (hrun : (Run.activity (.full scale session settings base turns) step).run turns w =
      (.verdict v, later)) :
    Answers session step w v := by
  have stays (h : step.action ≠ .jump) : ¬ Jumps session step w := fun jumps => h jumps.1
  rw [activity_full] at hrun
  cases haction : step.action with
  | invalid =>
      simp only [haction, if_true] at hrun
      cases hrun
      exact .plain (.failure _) (stays (by simp [haction]))
  | noop =>
      simp only [haction] at hrun
      cases hrun
      exact .plain .passed (stays (by simp [haction]))
  | openPage =>
      simp only [haction] at hrun
      exact .plain (Routine.Yields.of_run (concluding_plain step _ _) hrun)
        (stays (by simp [haction]))
  | fill =>
      simp only [haction] at hrun
      exact .plain (Routine.Yields.of_run (withElement_plain _ step _
        fun _ => concluding_plain step _ _) hrun) (stays (by simp [haction]))
  | click =>
      simp only [haction] at hrun
      exact .plain (Routine.Yields.of_run (withElement_plain _ step _
        fun _ => concluding_plain step _ _) hrun) (stays (by simp [haction]))
  | check =>
      simp only [haction] at hrun
      exact .plain (Routine.Yields.of_run (check_plain _ step) hrun) (stays (by simp [haction]))
  | select =>
      simp only [haction] at hrun
      exact .plain (Routine.Yields.of_run (select_plain _ step) hrun) (stays (by simp [haction]))
  | script =>
      simp only [haction] at hrun
      exact script_answers ⟨scale, session⟩ step haction (Activity.runAlone_of_run hrun)
  | waitAll =>
      simp only [haction] at hrun
      exact several_answers ⟨scale, session⟩ true step (.inl haction) hrun
  | waitAny =>
      simp only [haction] at hrun
      exact several_answers ⟨scale, session⟩ false step (.inr haction) hrun
  | jump =>
      simp only [haction] at hrun
      exact jump_answers ⟨scale, session⟩ step haction (Activity.runAlone_of_run hrun)
  | sleep =>
      simp only [haction] at hrun
      exact .plain (sleep_plain step hrun) (stays (by simp [haction]))

/-- An answer without a text is neither nothing nor a truth value. -/
theorem ne_of_scriptText_error {value : Datum} {e : Failure} (h : scriptText value = .error e) :
    value ≠ .null ∧ ∀ b, value ≠ .bool b := by
  constructor
  · rintro rfl
    cases h
  · rintro b rfl
    cases h

end Handler

namespace Run

/-- A failure escapes the handler of a step: the answer of its script has no text, or its sleep takes
more milliseconds than a binary64 number can count. -/
def Execution.Escapes (env : Env σ) (e : Execution σ) (failure : Failure) : Prop :=
  (e.step.action = .script ∨ e.step.action = .jump) ∧ (∃ value,
    ((env.session.runScript e.step.actionValue).runAlone e.start.world).1 = some (.ok value) ∧
      Handler.scriptText value = .error failure) ∨
  e.step.action = .sleep ∧ floatOfInt? (Handler.parseMillis e.step.actionValue) = none ∧
    failure = .hugeDuration

/-- A failure that escapes the handler fails the step, whose entry says that nobody expected it. -/
theorem activityEnd_of_escapes (scale : TimeScale τ) (session : Session σ) (settings : RunSettings)
    (base : DateTime) (turns : Nat) {e : Execution σ} {failure : Failure}
    (escapes : e.Escapes (.full scale session settings base turns) failure) :
    ∃ after, e.activityEnd (.full scale session settings base turns) =
      (.verdict (Handler.unexpected e.step failure), after) := by
  rw [Execution.activityEnd, Handler.activity_full]
  rcases escapes with ⟨scripts, value, answered, untold⟩ | ⟨sleeps, huge, rfl⟩
  · obtain ⟨some_value, noTruth⟩ := Handler.ne_of_scriptText_error untold
    change ((session.runScript e.step.actionValue).runAlone e.start.world).1 = _ at answered
    cases hscript : (session.runScript e.step.actionValue).runAlone e.start.world with
    | mk answer after =>
        obtain rfl : answer = some (.ok value) := by simpa [hscript] using answered
        have hverdict (verdict : String → Verdict) :
            Handler.withText e.step value verdict = Handler.unexpected e.step failure := by
          rw [Handler.withText, untold]
        refine ⟨after, ?_⟩
        rcases scripts with script | jump
        · simp only [script, reduceCtorEq, if_false, Handler.ofAction, Activity.run, Handler.script,
            Routine.runAlone_bind, hscript]
          cases value <;> first | exact absurd rfl some_value | simp only [hverdict, Routine.runAlone]
        · simp only [jump, reduceCtorEq, if_false, Handler.ofAction, Activity.run, Handler.jump,
            Routine.runAlone_bind, hscript]
          cases value <;> first | exact absurd rfl (noTruth _) | simp only [hverdict, Routine.runAlone]
  · refine ⟨e.start.world, ?_⟩
    simp only [sleeps, reduceCtorEq, if_false, Handler.ofAction, Handler.sleep, huge, Activity.run,
      Routine.runAlone]

end Run

end BrowserSteps
