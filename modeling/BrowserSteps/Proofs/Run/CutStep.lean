import BrowserSteps.Proofs.Run.Cancellation

/-!
What is recorded of the step that the deadline cut. An execution makes entries under the name of its
step only, and what it had logged when it was cut stays in the log. Its outcome, though, is made when
the run is closed, from the step and the instant alone: its one message is the entry of the timeout,
and it does not say when the step began.
-/

namespace BrowserSteps

/-- The later log has more entries, all of them about one step. -/
def Log.Tells (name : String) (log later : Log) : Prop :=
  ∃ told, later.entries = log.entries ++ told ∧
    ∀ entry ∈ told, ∃ now message, entry = Log.entry now name message

namespace Log.Tells

variable {name : String} {log later last : Log}

theorem refl (name : String) (log : Log) : log.Tells name log :=
  ⟨[], (List.append_nil _).symm, by simp⟩

theorem trans (first : log.Tells name later) (second : later.Tells name last) :
    log.Tells name last := by
  obtain ⟨told, hfirst, htold⟩ := first
  obtain ⟨more, hsecond, hmore⟩ := second
  exact ⟨told ++ more, by rw [hsecond, hfirst, List.append_assoc],
    List.forall_mem_append.mpr ⟨htold, hmore⟩⟩

theorem append (log : Log) (now : DateTime) (name message : String) :
    log.Tells name (log.append (Log.entry now name message)) :=
  ⟨[_], rfl, List.forall_mem_singleton.mpr ⟨now, message, rfl⟩⟩

end Log.Tells

namespace Run

variable {σ : Type} {env : Env σ} {capturing : Bool} {steps : List Step}

theorem tells_noted (env : Env σ) (e : Execution σ) (entries : List String) (world : World σ) :
    e.start.result.log.Tells e.step.name (e.noted env entries world).result.log := by
  refine ⟨_, entries_noted e entries world, fun entry member => ?_⟩
  obtain ⟨message, -, rfl⟩ := List.mem_map.mp member
  exact ⟨_, message, rfl⟩

theorem Finished.tells {step : Step} {stop : Bool} {s : State σ} {answer : Bool × State σ}
    (h : Finished env step stop s answer) : s.result.log.Tells step.name answer.2.result.log := by
  cases h with
  | ignored | measured => exact .refl _ _
  | refused => exact .append _ _ _ _

theorem Captured.tells {step : Step} {s : State σ} {answer : Part Bool × State σ}
    (h : Captured env capturing step s answer) :
    s.result.log.Tells step.name answer.2.result.log := by
  cases h with
  | unasked | saved | cut => exact .refl _ _
  | refused => exact .append _ _ _ _

/-- An execution makes entries about its step only. -/
theorem Executes.tells {e : Execution σ} {ending : StepEnd} {t : State σ}
    (h : Executes env capturing e ending t) :
    e.start.result.log.Tells e.step.name t.result.log := by
  have hmarked {v : Verdict} {world : World σ} {part : Part Bool} {s : State σ}
      (captured : markCapture env capturing e.step (e.measured env v world).2 = (part, s)) :
      e.start.result.log.Tells e.step.name s.result.log :=
    ((tells_noted env e v.entries world).trans (e.finished env v world).tells).trans
      (captured_of_eq captured).tells
  cases h with
  | ended v world unsaved s _ captured _ state_eq =>
      subst state_eq
      exact (hmarked captured :)
  | cutInCapture v world _ captured => exact hmarked captured
  | cutInActivity entries world _ _ state_eq => exact state_eq ▸ tells_noted env e entries world
  | unfinished world _ _ state_eq =>
      rw [state_eq, markStart_eq]
      exact .refl _ _

/-- What the execution has logged by its end, whether it came to its own or was cut. -/
def Execution.told (env : Env σ) (capturing : Bool) (e : Execution σ) : List String :=
  (e.executed env capturing).2.result.log.entries.drop e.start.result.log.entries.length

theorem entries_executed (env : Env σ) (capturing : Bool) (e : Execution σ) :
    (e.executed env capturing).2.result.log.entries =
        e.start.result.log.entries ++ e.told env capturing ∧
      ∀ entry ∈ e.told env capturing, ∃ now message, entry = Log.entry now e.step.name message := by
  obtain ⟨told, hentries, htold⟩ : e.start.result.log.Tells e.step.name
      (e.executed env capturing).2.result.log := (Executes.of_executed rfl).tells
  have hsame : e.told env capturing = told := by
    rw [Execution.told, hentries, List.drop_left]
  exact hsame ▸ ⟨hentries, htold⟩

/-- A course that is cut ends with an execution that was. -/
theorem Course.last_of_cut {s u : State σ} {es : List (Execution σ)} {reason : End}
    (h : Course env capturing steps s es reason u) (cut : reason = .cut) :
    ∃ e, es.getLast? = some e ∧ steps[e.index]? = some e.step ∧
      e.executed env capturing = (.cut, u) := by
  induction h with
  | next _ _ _ _ _ ih =>
      obtain ⟨e, last, here, executed⟩ := ih cut
      exact ⟨e, List.mem_getLast?_cons last, here, executed⟩
  | @cut s t e _ here _ executed => exact ⟨e, rfl, here, executed⟩
  | finished | stopped | cancelled | waiting | bounded => cases cut

/-- What is recorded of the step that the deadline cut, in every run that it cut. The outcome is
failed and ends with the run, but does not say when the step began, so that its duration is zero,
however long the step ran; and its one message is the entry of the timeout. What the step had logged
before is in the log, under its name, but not in the outcome: of the lines that the log has gained
since the step began, the outcome lacks at least one for each of those entries. -/
theorem run_cut_record (env : Env σ) (steps : List Step) (order : Order) (bound : Nat)
    (world : World σ) (files : FileTree)
    (cut : (run env steps order bound world files).1 = .cut) :
    let es := history env steps order bound world files
    let r := (run env steps order bound world files).2.result
    ∃ e o finished, ∃ ran : Nat, es.getLast? = some e ∧ r.outcomes.getLast? = some o ∧
      r.finishedAt = some finished ∧
      o = { outcomeOf e.index e.step with
        startedAt := none, finishedAt := some finished, status := .failed
        messages := [Log.entry finished e.step.name Handler.timedOut] } ∧
      o.durationMillis = 0.0 ∧
      (e.executed env order.capturing).2.world.clock = e.start.world.clock + ran ∧
      finished.since (e.start.now env) = ran ∧
      r.log.entries = e.start.result.log.entries ++ e.told env order.capturing ++ o.messages ∧
      (∀ entry ∈ e.told env order.capturing,
        ∃ now message, entry = Log.entry now e.step.name message) ∧
      o.messages.length + (e.told env order.capturing).length ≤
        (r.log.lines.drop e.start.result.log.lines.length).length := by
  intro es r
  obtain ⟨u, hcourse, hended⟩ := run_course env steps order bound world files
  have htimely := (opening_fresh env order world files).timely
  obtain ⟨e, last, here, executed⟩ := hcourse.last_of_cut cut
  have hfollows := (Executes.of_executed executed).follows
  have hstart := hcourse.before_start htimely e (List.mem_of_getLast? last)
  have hclock : e.start.world.clock ≤ u.world.clock := (hfollows.world hstart.timely).clock
  have hnext : steps[u.next]? = some e.step := hfollows.next ▸ here
  obtain ⟨hentries, htold⟩ := entries_executed env order.capturing e
  rw [executed] at hentries
  rw [cut] at hended
  have hlog : r.log = u.result.log.append (Log.entry (u.now env) e.step.name Handler.timedOut) := by
    simp only [r, hended, closing, recordCut, hnext, if_true]
    rfl
  have houtcomes : r.outcomes = u.result.outcomes ++ [cutOutcome env e.step u] := by
    simp only [r, hended, closing, recordCut, hnext, if_true]
    rfl
  obtain ⟨ran, hran⟩ := Nat.exists_eq_add_of_le hclock
  refine ⟨e, cutOutcome env e.step u, u.now env, ran, last, ?_, ?_, ?_, rfl, ?_, ?_, ?_, htold, ?_⟩
  · rw [houtcomes, List.getLast?_concat]
  · simp only [r, hended, closing, recordCut, hnext, if_true]
    rfl
  · simp only [cutOutcome, outcomeOf, hfollows.next, Execution.index]
  · rw [executed, hran]
  · rw [State.now, State.now, since_add, hran]
    omega
  · rw [hlog, Log.entries_append, hentries]
    rfl
  · have hgained : r.log.entries = e.start.result.log.entries ++
        (e.told env order.capturing ++ (cutOutcome env e.step u).messages) := by
      rw [hlog, Log.entries_append, hentries, List.append_assoc]
      rfl
    have hlines := Log.lines_length_of_entries hgained fun entry member => ?_
    · rw [List.length_append] at hlines
      rw [List.length_drop]
      omega
    · rcases List.mem_append.mp member with before | last
      · obtain ⟨now, message, rfl⟩ := htold entry before
        exact Log.entry_ne_empty _ _ _
      · obtain rfl := List.mem_singleton.mp last
        exact Log.entry_ne_empty _ _ _

/-- A session whose screenshots take five seconds. -/
def slowCapturingSession : Session Unit :=
  { cancellingSession with screenshot := .pause 5000000 (.done (.ok [])) }

/-- A step whose finish marker is refused before its screenshot is taken. -/
def capturedSteps : List Step :=
  [{ name := "a", action := .noop, marker := .finish, capture := true }]

theorem run_cut_record_in_capture :
    let env := Env.full .binary slowCapturingSession { timeout := .whole 1 } ⟨0⟩ 0
    let order : Order := { capturing := true }
    let world : World Unit := { shared := () }
    let r := (run env capturedSteps order 1 world {}).2.result
    (run env capturedSteps order 1 world {}).1 = .cut ∧
      ∃ e o, (history env capturedSteps order 1 world {}).getLast? = some e ∧
        r.outcomes.getLast? = some o ∧
        e.told env order.capturing =
          ["1-01-01 00:00:00: Step [a] The end marker before start marker"] ∧
        o.messages = ["1-01-01 00:00:01: Step [a] run timeout"] ∧ o.durationMillis = 0.0 := by
  intro env order world r
  have cut : (run env capturedSteps order 1 world {}).1 = .cut := by decide +kernel
  obtain ⟨e, o, finished, ran, last, hlast, hfinished, rfl, zero, -⟩ :=
    run_cut_record env capturedSteps order 1 world {} cut
  have htold : (history env capturedSteps order 1 world {}).getLast?.map
      (fun e => (e.told env order.capturing, e.step.name)) =
        some (["1-01-01 00:00:00: Step [a] The end marker before start marker"], "a") := by
    decide +kernel
  have hended : r.finishedAt = some (DateTime.add ⟨0⟩ 1000000) := by decide +kernel
  have hentry : Log.entry (DateTime.add ⟨0⟩ 1000000) "a" Handler.timedOut =
      "1-01-01 00:00:01: Step [a] run timeout" := by decide +kernel
  rw [last, Option.map_some, Option.some.injEq, Prod.mk.injEq] at htold
  obtain rfl : finished = DateTime.add ⟨0⟩ 1000000 :=
    Option.some.inj (hfinished.symm.trans hended)
  refine ⟨cut, e, _, last, hlast, htold.1, ?_, zero⟩
  rw [htold.2, hentry]

/-- A step that sleeps for longer than the run may take. -/
def sleepingSteps : List Step := [{ name := "a", action := .sleep, actionValue := "5000" }]

/-- The outcome of a step that was cut after a second has neither its time nor all of its lines. -/
theorem cut_record_incomplete :
    let env := Env.full .binary cancellingSession { timeout := .whole 1 } ⟨0⟩ 0
    let ended := run env sleepingSteps {} 1 { shared := () } {}
    let r := ended.2.result
    ended.1 = .cut ∧ r.startedAt = some ⟨0⟩ ∧ r.finishedAt = some (DateTime.add ⟨0⟩ 1000000) ∧
      r.log.lines = ["1-01-01 00:00:01: Step [a] sleep interrupted",
        "1-01-01 00:00:01: Step [a] run timeout"] ∧
      r.outcomes.map (fun o => (o.startedAt, o.messages)) =
        [(none, ["1-01-01 00:00:01: Step [a] run timeout"])] := by
  decide +kernel

end Run

end BrowserSteps
