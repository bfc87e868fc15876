import BrowserSteps.Proofs.Result.Log
import BrowserSteps.Proofs.Run.Measurement
import BrowserSteps.Proofs.Run.Recording
import BrowserSteps.Proofs.Run.Verdict

/-!
What the status of an outcome means. An outcome is passed exactly if nothing that the step was to
do went wrong; one that failed has a message, since whatever fails a step also makes an entry; and
what passes makes no entry, except for the answers of scripts and the durations of waits.
-/

namespace BrowserSteps

/-- A verdict on a failed step has an entry. -/
theorem Handler.Answers.entries_ne_nil {σ : Type} {session : Session σ} {step : Step} {w : World σ}
    {v : Verdict} (h : Handler.Answers session step w v) (failed : v.failed = true) :
    v.entries ≠ [] := by
  cases h with
  | plain plain stays =>
      cases plain with
      | passed => cases failed
      | failure entry => exact List.cons_ne_nil _ _
  | told | jumped => cases failed
  | reported => exact List.cons_ne_nil _ _

namespace Run

variable {σ τ : Type} {env : Env σ} {capturing : Bool} {steps : List Step}

/-- If the finish marker is processed, it writes a sample. -/
def Execution.Measured (env : Env σ) (v : Verdict) (world : World σ) (e : Execution σ) : Prop :=
  e.step.marker = .finish ∧ v.stop = false →
    ∃ sample, (e.measured env v world).2.result =
      (e.noted env v.entries world).result.putSample e.step.measureSlot sample

/-- If the run and the step both ask for a screenshot, it is saved. -/
def Execution.Saved (env : Env σ) (capturing : Bool) (v : Verdict) (world : World σ)
    (e : Execution σ) : Prop :=
  capturing = true ∧ e.step.capture = true →
    ∃ path, (saveScreenshot env e.step.name (e.measured env v world).2).1 = .done (.ok path)

/-- The activity came to an end without a failure, the finish marker wrote a sample if it was
processed, and the screenshot was saved if it was asked for. -/
def Execution.Succeeds (env : Env σ) (capturing : Bool) (e : Execution σ) : Prop :=
  ∃ v world, e.activityEnd env = (.verdict v, world) ∧ v.failed = false ∧
    e.Measured env v world ∧ e.Saved env capturing v world

theorem measured_iff (e : Execution σ) (v : Verdict) (world : World σ) :
    (e.measured env v world).1 = false ↔ e.Measured env v world := by
  have hfinished := e.finished env v world
  unfold Execution.Measured
  generalize e.measured env v world = answer at hfinished ⊢
  cases hfinished with
  | ignored h => simp [h]
  | measured h pending slot => exact iff_of_true rfl (fun _ => ⟨_, rfl⟩)
  | @refused fault h unusable =>
      refine iff_of_false (by simp) ?_
      intro hwritten
      obtain ⟨sample, hsample⟩ := hwritten h
      have hlength := congrArg (fun r => r.log.entries.length) hsample
      simp [State.note, RunResult.note, RunResult.putSample] at hlength

theorem saved_iff {e : Execution σ} {v : Verdict} {world : World σ} {unsaved : Bool} {s : State σ}
    (captured : markCapture env capturing e.step (e.measured env v world).2 = (.done unsaved, s)) :
    unsaved = false ↔ e.Saved env capturing v world := by
  unfold Execution.Saved
  rw [← Bool.and_eq_true]
  cases captured_of_eq captured with
  | unasked h => simp [h]
  | saved h _ written => exact iff_of_true rfl (fun _ => ⟨_, by rw [written]⟩)
  | refused h _ failed =>
      refine iff_of_false (by simp) ?_
      intro hsaved
      obtain ⟨path, hpath⟩ := hsaved h
      simp [failed] at hpath

theorem Executes.not_succeeds {e : Execution σ} {t : State σ}
    (h : Executes env capturing e .cut t) : ¬ e.Succeeds env capturing := by
  rintro ⟨v, world, answered, -, -, saved⟩
  cases h with
  | ended v' _ _ _ _ _ ending_eq => exact absurd rfl (ending_of_verdict v' ending_eq).1
  | cutInCapture v' world' answered' captured =>
      obtain ⟨rfl, rfl⟩ : v' = v ∧ world' = world := by simpa [answered'] using answered
      cases captured_of_eq captured with
      | cut h _ _ failed =>
          obtain ⟨path, hpath⟩ := saved (by simpa using h)
          simp [failed] at hpath
  | cutInActivity _ _ answered' => simp [answered'] at answered
  | unfinished _ _ ending_eq => cases ending_eq

/-- The status of an outcome is that of its execution. -/
theorem Recorded.passed_iff {e : Execution σ} {o : Outcome} (h : Recorded env capturing e o) :
    o.status = .passed ↔ e.Succeeds env capturing := by
  cases h with
  | ended v world unsaved s executed answered captured outcome_eq =>
      have hsucceeds : e.Succeeds env capturing ↔ v.failed = false ∧
          (e.measured env v world).1 = false ∧ unsaved = false := by
        rw [measured_iff, saved_iff captured]
        constructor
        · rintro ⟨v', world', answered', rest⟩
          obtain ⟨rfl, rfl⟩ : v = v' ∧ world = world' := by simpa [answered] using answered'
          exact rest
        · intro rest
          exact ⟨v, world, answered, rest⟩
      rw [hsucceeds, outcome_eq, endedOutcome]
      simp [and_assoc]
  | cut t executed outcome_eq =>
      refine iff_of_false ?_ (Executes.of_executed executed).not_succeeds
      simp [outcome_eq, cutOutcome]

theorem entries_noted (e : Execution σ) (entries : List String) (world : World σ) :
    (e.noted env entries world).result.log.entries =
      e.start.result.log.entries ++
        entries.map (Log.entry (env.base.add world.clock) e.step.name) := by
  simp only [Execution.noted, noteAll_eq, markStart_eq, State.now]

/-- A failure, of whatever part of the step, adds a line to the log. -/
theorem lines_lt_of_failed {e : Execution σ} {v : Verdict} {world : World σ} {unsaved : Bool}
    {s : State σ} (answered : e.activityEnd env = (.verdict v, world))
    (captured : markCapture env capturing e.step (e.measured env v world).2 = (.done unsaved, s))
    (explained : v.failed = true → v.entries ≠ [])
    (failed : (v.failed || (e.measured env v world).1 || unsaved) = true) :
    e.start.result.log.lines.length < s.result.log.lines.length := by
  have hnoted := (follows_noted env e answered v.entries).entries
  have hmarked := (follows_marked captured).entries
  have hfinished := e.finished env v world
  have hcaptured := captured_of_eq captured
  have hfollows := hcaptured.follows.entries
  simp only [Bool.or_eq_true] at failed
  rcases failed with (hfailed | hunmeasured) | hunsaved
  · obtain ⟨message, rest, hentries⟩ := List.exists_cons_of_ne_nil (explained hfailed)
    rw [entries_noted, hentries, List.map_cons] at hmarked
    have hfirst : (e.start.result.log.append
        (Log.entry (env.base.add world.clock) e.step.name message)).entries <+:
          s.result.log.entries :=
      .trans ((List.prefix_append_right_inj _).mpr ⟨_, rfl⟩) hmarked
    exact Log.lines_lt_of_append (Log.entry_ne_empty _ _ _) List.prefix_rfl hfirst
  · generalize e.measured env v world = answer at hfinished hunmeasured hfollows
    cases hfinished with
    | ignored | measured => cases hunmeasured
    | refused => exact Log.lines_lt_of_append (Log.entry_ne_empty _ _ _) hnoted hfollows
  · have hmeasured := hfinished.follows.entries
    subst hunsaved
    cases hcaptured with
    | refused =>
        exact Log.lines_lt_of_append (Log.entry_ne_empty _ _ _) (hnoted.trans hmeasured)
          List.prefix_rfl

theorem Recorded.messages_ne_nil {e : Execution σ} {o : Outcome} (h : Recorded env capturing e o)
    (explained : ∀ v world, e.activityEnd env = (.verdict v, world) → v.failed = true →
      v.entries ≠ []) :
    o.status = .passed ∨ o.status = .failed ∧ o.messages ≠ [] := by
  cases h with
  | ended v world unsaved s executed answered captured outcome_eq =>
      subst outcome_eq
      cases failed : v.failed || (e.measured env v world).1 || unsaved with
      | false => exact .inl rfl
      | true =>
          refine .inr ⟨rfl, ?_⟩
          have hlonger := lines_lt_of_failed answered captured (explained v world answered) failed
          simp only [endedOutcome, ne_eq, List.drop_eq_nil_iff, Nat.not_le]
          exact hlonger
  | cut t executed outcome_eq =>
      subst outcome_eq
      exact .inr ⟨rfl, List.cons_ne_nil _ _⟩

/-- What succeeds makes no entries but those of its verdict. -/
theorem Executes.entries_of_succeeds {e : Execution σ} {ending : StepEnd} {t : State σ}
    (h : Executes env capturing e ending t) (complete : ending ≠ .unfinished)
    (succeeds : e.Succeeds env capturing) :
    ∃ v world, e.activityEnd env = (.verdict v, world) ∧ v.failed = false ∧
      t.result.log.entries = e.start.result.log.entries ++
        v.entries.map (Log.entry (e.markedAt env) e.step.name) := by
  cases h with
  | ended v world unsaved s answered captured _ state_eq =>
      obtain ⟨v', world', answered', hfailed, hmeasured, hsaved⟩ := succeeds
      obtain ⟨rfl, rfl⟩ : v = v' ∧ world = world' := by simpa [answered] using answered'
      refine ⟨v, world, answered, hfailed, ?_⟩
      rw [← measured_iff] at hmeasured
      rw [← saved_iff captured] at hsaved
      have hfinished := e.finished env v world
      have hlog : s.result.log = (e.measured env v world).2.result.log := by
        subst hsaved
        cases captured_of_eq captured <;> rfl
      have hsame : (e.measured env v world).2.result.log =
          (e.noted env v.entries world).result.log := by
        generalize e.measured env v world = answer at hfinished hmeasured
        cases hfinished with
        | ignored | measured => rfl
        | refused => cases hmeasured
      calc
        t.result.log.entries = s.result.log.entries := by rw [state_eq]; rfl
        _ = (e.noted env v.entries world).result.log.entries := by rw [hlog, hsame]
        _ = _ := by rw [entries_noted, Execution.markedAt, answered]
  | cutInCapture v world answered captured ending_eq =>
      subst ending_eq
      exact absurd succeeds (Executes.not_succeeds (.cutInCapture v world answered captured rfl))
  | cutInActivity entries world answered ending_eq =>
      obtain ⟨v, world', answered', _⟩ := succeeds
      simp [answered] at answered'
  | unfinished _ _ ending_eq => exact absurd ending_eq complete

/-- Entries that do not report a failure: what a script answered, and how long waits took. -/
inductive Told (env : Env σ) (e : Execution σ) : String → Prop where
  | answer (value : Datum) (text : String) (action : e.step.action = .script)
      (answered : ((env.session.runScript e.step.actionValue).runAlone e.start.world).1 =
        some (.ok value))
      (said : Handler.scriptText value = .ok text) :
      Told env e (Log.entry (e.markedAt env) e.step.name text)
  | durations (millis : List Int) (action : e.step.action = .waitAll ∨ e.step.action = .waitAny) :
      Told env e (Log.entry (e.markedAt env) e.step.name
        ("Duration: " ++ ",".intercalate (millis.map toString)))

/-- The entry of a run that was cancelled, about the step that was next. -/
def cancellation (env : Env σ) (steps : List Step) (reason : End) (s : State σ) : List String :=
  match reason, steps[s.next]? with
  | .cancelled, some step => [Log.entry (s.now env) step.name Handler.cancelled]
  | _, _ => []

/-- Verdicts that pass have no other entries. -/
def Discreet (env : Env σ) : Prop :=
  ∀ (e : Execution σ) (v : Verdict) (world : World σ), e.activityEnd env = (.verdict v, world) →
    v.failed = false → ∀ message ∈ v.entries,
      Told env e (Log.entry (e.markedAt env) e.step.name message)

theorem discreet_full (scale : TimeScale τ) (session : Session σ) (settings : RunSettings)
    (base : DateTime) (turns : Nat) : Discreet (.full scale session settings base turns) := by
  intro e v world answered passed message member
  cases Handler.verdict_answers scale session settings base turns e.step answered with
  | plain plain _ =>
      cases plain with
      | passed => cases member
      | failure => cases passed
  | told action _ answer said =>
      obtain rfl := List.mem_singleton.mp member
      exact .answer _ _ action answer said
  | jumped => cases member
  | @reported v several action plain =>
      cases plain with
      | passed =>
          have hreport : several.report =
              "Duration: " ++ ",".intercalate ((several.slots.map (·.millis)).map toString) := rfl
          obtain rfl := List.mem_singleton.mp member
          rw [hreport]
          exact .durations _ action
      | failure => cases passed

/-- A course of executions that all succeed adds nothing else to the log, except for the entry of
a cancellation. -/
theorem Course.entries_of_succeeds {s u : State σ} {es : List (Execution σ)} {reason : End}
    (h : Course env capturing steps s es reason u) (discreet : Discreet env)
    (succeed : ∀ e ∈ es, e.Succeeds env capturing) :
    reason ≠ .cut ∧ ∃ told, (∀ entry ∈ told, ∃ e ∈ es, Told env e entry) ∧
      u.result.log.entries =
        s.result.log.entries ++ told ++ cancellation env steps reason u := by
  have htold {e : Execution σ} {ending : StepEnd} {t : State σ}
      (executed : e.executed env capturing = (ending, t)) (complete : ending ≠ .unfinished)
      (succeeds : e.Succeeds env capturing) :
      ∃ told, (∀ entry ∈ told, Told env e entry) ∧
        t.result.log.entries = e.start.result.log.entries ++ told := by
    obtain ⟨v, world, answered, passed, hentries⟩ :=
      (Executes.of_executed executed).entries_of_succeeds complete succeeds
    refine ⟨_, ?_, hentries⟩
    intro entry member
    obtain ⟨message, hmessage, rfl⟩ := List.mem_map.mp member
    exact discreet e v world answered passed message hmessage
  induction h with
  | finished | bounded => exact ⟨by simp, [], by simp, by simp [cancellation]⟩
  | cancelled here =>
      refine ⟨by simp, [], by simp, ?_⟩
      simp only [cancellation, State.note, here, List.append_nil]
      rfl
  | @next s t u e rest reason jump start here running executed onward ih =>
      subst start
      obtain ⟨first, others⟩ := List.forall_mem_cons.mp succeed
      obtain ⟨uncut, later, hlater, hrest⟩ := ih others
      obtain ⟨told, hentries, hfirst⟩ := htold executed (by simp) first
      refine ⟨uncut, told ++ later, ?_, ?_⟩
      · intro entry member
        rcases List.mem_append.mp member with hnow | hthen
        · exact ⟨e, List.mem_cons_self, hentries entry hnow⟩
        · obtain ⟨d, hd, htells⟩ := hlater entry hthen
          exact ⟨d, List.mem_cons_of_mem e hd, htells⟩
      · rw [hrest, ← List.append_assoc, ← hfirst]
        rfl
  | @stopped s t e start here running executed =>
      subst start
      obtain ⟨told, hentries, hfirst⟩ :=
        htold executed (by simp) (succeed e (List.mem_singleton_self e))
      refine ⟨by simp, told, ?_, ?_⟩
      · intro entry member
        exact ⟨e, List.mem_singleton_self e, hentries entry member⟩
      · simpa [cancellation] using hfirst
  | @cut s t e start here running executed =>
      exact absurd (succeed e (List.mem_singleton_self e))
        (Executes.of_executed executed).not_succeeds
  | @waiting s t e start here executed =>
      subst start
      have hsame := (Executes.of_executed executed).result_of_unfinished
      exact ⟨by simp, [], by simp, by simp [hsame, cancellation]⟩

/-- What the outcomes of every run with all actions mean. An outcome is passed if and only if its
execution succeeds: the activity came to an end without a failure, the finish marker wrote a sample
if it was processed, and the screenshot was saved if it was asked for; so no execution succeeds whose
handler let a failure escape. Every other outcome is failed and has a message. If all are passed, the
log holds what scripts answered and how long waits took, and besides that at most the entry of a
cancellation. -/
theorem run_explained (scale : TimeScale τ) (session : Session σ) (settings : RunSettings)
    (base : DateTime) (turns : Nat) (steps : List Step) (order : Order) (bound : Nat)
    (world : World σ) (files : FileTree) :
    let env := Env.full scale session settings base turns
    let es := history env steps order bound world files
    let ended := run env steps order bound world files
    let r := ended.2.result
    List.Forall₂ (fun e o => o.status = .passed ↔ e.Succeeds env order.capturing) es r.outcomes ∧
    (∀ e ∈ es, ∀ failure, e.Escapes env failure → ¬ e.Succeeds env order.capturing) ∧
    (∀ o ∈ r.outcomes, o.status = .passed ∨ o.status = .failed ∧ o.messages ≠ []) ∧
    ((∀ o ∈ r.outcomes, o.status = .passed) →
      ∃ told, (∀ entry ∈ told, ∃ e ∈ es, Told env e entry) ∧
        r.log.entries = told ++ cancellation env steps ended.1 ended.2) := by
  intro env es ended r
  obtain ⟨u, hcourse, hended⟩ := run_course env steps order bound world files
  have hfresh := opening_fresh env order world files
  have hrecorded := run_recorded env steps order bound world files
  have hstatus : List.Forall₂
      (fun e o => o.status = .passed ↔ e.Succeeds env order.capturing) es r.outcomes :=
    hrecorded.imp fun _ _ hrecord => hrecord.passed_iff
  refine ⟨hstatus, ?_, ?_, ?_⟩
  · rintro e - failure escapes ⟨v, after, answered, passed, -⟩
    obtain ⟨_, unexpected⟩ :=
      activityEnd_of_escapes scale session settings base turns escapes
    cases answered.symm.trans unexpected
    cases passed
  · intro o member
    obtain ⟨k, at_k⟩ := List.mem_iff_getElem?.mp member
    obtain ⟨e, _, hrecord⟩ := forall₂_getElem? hrecorded at_k
    apply hrecord.messages_ne_nil
    intro v world answered failed
    exact (Handler.verdict_answers scale session settings base turns e.step
      answered).entries_ne_nil failed
  · intro passed
    have hsucceed : ∀ e ∈ es, e.Succeeds env order.capturing := by
      intro e member
      obtain ⟨k, at_k⟩ := List.mem_iff_getElem?.mp member
      obtain ⟨o, outcome_k, hpassed⟩ := forall₂_getElem? hstatus.flip at_k
      exact hpassed.mp (passed o (List.mem_of_getElem? outcome_k))
    obtain ⟨uncut, told, htold, hentries⟩ :=
      hcourse.entries_of_succeeds (discreet_full scale session settings base turns) hsucceed
    refine ⟨told, htold, ?_⟩
    rw [hfresh.log, List.nil_append] at hentries
    have hclosed := hended.trans (closing_of_uncut env steps uncut u)
    simp only [r, ended, hclosed, hentries]
    rfl

end Run

end BrowserSteps
