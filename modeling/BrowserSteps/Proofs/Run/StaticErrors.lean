import BrowserSteps.Proofs.Lint.Reports
import BrowserSteps.Proofs.Run.Interruption
import BrowserSteps.Proofs.Wait.Lateness

/-!
Errors that can be told from a step alone. A run refuses the steps whose action is invalid, those
that look for an element of an unknown kind, and the finish markers with a foreign slot; the checks
of a step list report exactly these, at the indices at which they stand, if they come to their end.
They do not if a number that they are to write has too many digits; a run writes no such number.
-/

namespace BrowserSteps

variable {σ τ : Type}

theorem Routine.Yields.then {α β : Type} {p : α → Prop} {q : β → Prop} {r : Routine σ α}
    (h : r.Yields p) {f : α → Routine σ β} (hf : ∀ value, p value → (f value).Yields q) :
    (r.bind f).Yields q := by
  induction r with
  | done value => exact hf value h
  | act change next ih => exact fun w => ih w (h w)
  | pause micros next ih | acquire next ih | release next ih => exact ih h

namespace Wait

/-- A wait that asks does not end for its selector kind. -/
def Located.Asked : Except Failure (Located τ) → Prop
  | .ok (.missed reason _) => reason ≠ .selectorKind
  | _ => True

theorem asked_poll (p : Plan τ) (query : Command.Routine σ (Option ElementRef)) (start bound : Nat) :
    (poll p query start bound).Yields fun located => Located.Asked (.ok located) := by
  induction bound with
  | zero => exact fun w => Reason.noConfusion
  | succ bound ih =>
      refine .bind (fun found => .bind (fun w => ?_) _) query
      cases hverdict : p.verdict found (p.scale.ofMicros (w.clock - start)) w.cancelled with
      | inr pause => exact ih
      | inl located =>
          simp only [Plan.verdict] at hverdict
          split at hverdict
          · cases hverdict
            trivial
          · split at hverdict
            · cases hverdict
              exact Reason.noConfusion
            · split at hverdict <;> cases hverdict
              exact Reason.noConfusion

theorem asked_element (scale : TimeScale τ) (session : Session σ) {kind : SelectorKind}
    (known : kind ≠ .unknown) (value : String) (limit : Number) (interval : τ) (heeds : Bool) :
    (element scale session kind value limit interval heeds).Yields Located.Asked := by
  intro w
  simp only [known, if_false]
  cases scale.limit? limit with
  | none => trivial
  | some limit => exact (asked_poll _ _ _ _).then fun located asked => asked

end Wait

namespace Handler

/-- An entry about what only a run can find out. -/
def Dynamic (entry : String) : Prop :=
  entry ≠ invalidAction ∧ entry ≠ Wait.Reason.selectorKind.message

/-- The entries of a failure are about what only a run can find out. -/
def FailsDynamically (v : Verdict) : Prop := v.failed = true → ∀ entry ∈ v.entries, Dynamic entry

theorem dynamic_append {word : String} {c : Char} (head : word.toList.head? = some c)
    (foreign : c ≠ 'I' ∧ c ≠ 'W') (rest : String) : Dynamic (word ++ rest) := by
  have hhead : (word ++ rest).toList.head? = some c := by
    rw [String.toList_append, List.head?_append, head]
    rfl
  constructor
  · intro same
    rw [same] at hhead
    exact foreign.1 (Option.some.inj hhead).symm
  · intro same
    rw [same] at hhead
    exact foreign.2 (Option.some.inj hhead).symm

theorem failsDynamically_passed : FailsDynamically .passed := nofun

theorem failsDynamically_failure {step : Step} {entry : String} (h : Dynamic entry) :
    FailsDynamically (.failure step entry) :=
  fun _ => List.forall_mem_singleton.mpr h

theorem FailsDynamically.after {v : Verdict} (h : FailsDynamically v) {entry : String}
    (hentry : Dynamic entry) : FailsDynamically (v.after entry) :=
  fun failed => List.forall_mem_cons.mpr ⟨hentry, h failed⟩

theorem failsDynamically_actionFailure (step : Step) {word : String} {c : Char}
    (head : word.toList.head? = some c) (foreign : c ≠ 'I' ∧ c ≠ 'W') (e : Failure) :
    FailsDynamically (actionFailure step word e) := by
  apply failsDynamically_failure
  rw [String.append_assoc]
  exact dynamic_append head foreign _

section

variable (x : Setting σ τ) (step : Step)

theorem concluding_dynamic {word : String} {c : Char} (head : word.toList.head? = some c)
    (foreign : c ≠ 'I' ∧ c ≠ 'W') (command : Command.Routine σ Unit) :
    (concluding step word command).Yields FailsDynamically := by
  refine .bind (fun result => ?_) command
  cases result with
  | ok => exact failsDynamically_passed
  | error e => exact failsDynamically_actionFailure step head foreign e

theorem withElement_dynamic (known : step.selectorKind ≠ .unknown) {word : String} {c : Char}
    (head : word.toList.head? = some c) (foreign : c ≠ 'I' ∧ c ≠ 'W')
    {body : ElementRef → Routine σ Verdict}
    (hbody : ∀ element, (body element).Yields FailsDynamically) :
    (withElement x step word body).Yields FailsDynamically := by
  refine (Wait.asked_element x.scale x.session known _ _ _ _).then fun result asked => ?_
  cases result with
  | error e => exact failsDynamically_actionFailure step head foreign e
  | ok located =>
      cases located with
      | found element elapsed => exact hbody element
      | missed reason elapsed =>
          cases reason with
          | selectorKind => exact absurd rfl asked
          | timeout => exact failsDynamically_failure ⟨by decide, by decide⟩
          | cancelled => exact failsDynamically_failure ⟨by decide, by decide⟩
          | unfinished => exact failsDynamically_failure ⟨by decide, by decide⟩

theorem selectItem_dynamic (items : List ElementRef) :
    (selectItem x step items).Yields FailsDynamically := by
  induction items with
  | nil =>
      apply failsDynamically_failure
      rw [String.append_assoc]
      exact dynamic_append (c := 's') rfl (by decide) _
  | cons item rest ih =>
      refine .bind (fun result => ?_) _
      cases result with
      | error e => exact failsDynamically_actionFailure step (c := 's') rfl (by decide) e
      | ok text =>
          simp only
          split
          · exact concluding_dynamic step (c := 's') rfl (by decide) _
          · exact ih

theorem select_dynamic (known : step.selectorKind ≠ .unknown) :
    (select x step).Yields FailsDynamically := by
  refine withElement_dynamic x step known (c := 's') rfl (by decide) fun element => ?_
  refine .bind (fun result => ?_) _
  cases result with
  | error e => exact failsDynamically_actionFailure step (c := 's') rfl (by decide) e
  | ok items => exact selectItem_dynamic x step items

theorem check_dynamic (known : step.selectorKind ≠ .unknown) :
    (check x step).Yields FailsDynamically := by
  refine withElement_dynamic x step known (c := 'c') rfl (by decide) fun element => ?_
  refine .bind (fun result => ?_) _
  split
  · exact failsDynamically_actionFailure step (c := 'c') rfl (by decide) _
  · exact failsDynamically_passed
  · apply failsDynamically_failure
    rw [String.append_assoc, String.append_assoc]
    exact dynamic_append (c := 'c') rfl (by decide) _

theorem unexpected_dynamic (e : Failure) : FailsDynamically (unexpected step e) :=
  failsDynamically_failure (dynamic_append (c := 'u') rfl (by decide) _)

theorem jump_dynamic : (jump x step).Yields FailsDynamically := by
  refine .bind (fun result => ?_) _
  split
  · exact failsDynamically_actionFailure step (c := 'g') rfl (by decide) _
  · nofun
  · exact failsDynamically_passed
  next value _ _ =>
    unfold withText
    split
    · exact failsDynamically_failure (dynamic_append (c := 'g') rfl (by decide) _)
    · exact unexpected_dynamic step _

theorem judge_dynamic (needsAll isCancelled : Bool) (answer : Except Failure Wait.Several) :
    FailsDynamically (judge step needsAll isCancelled answer) := by
  cases answer with
  | error e => exact failsDynamically_failure (dynamic_append (c := 'w') rfl (by decide) _)
  | ok found =>
      have hreport : Dynamic found.report := dynamic_append (c := 'D') rfl (by decide) _
      simp only [judge]
      refine FailsDynamically.after ?_ hreport
      generalize (if needsAll then found.all else found.any) = enough
      cases enough with
      | true => exact failsDynamically_passed
      | false =>
          cases isCancelled with
          | true => exact failsDynamically_failure ⟨by decide, by decide⟩
          | false => exact failsDynamically_failure ⟨by decide, by decide⟩

/-- A wait for several elements whose kind is known. -/
theorem several_dynamic (known : step.selectorKind ≠ .unknown) (needsAll : Bool) {turns : Nat}
    {w later : World σ} {v : Verdict}
    (hrun : (several x needsAll step).run turns w = (.verdict v, later)) : FailsDynamically v := by
  simp only [several, known, if_false] at hrun
  split at hrun
  · exact Routine.Yields.of_run (check_dynamic x { step with actionValue := "" } known) hrun
  · obtain ⟨results, -, rfl⟩ := Activity.runTogether_of_run hrun
    exact judge_dynamic step needsAll _ _

theorem sleep_dynamic {turns : Nat} {w later : World σ} {v : Verdict}
    (hrun : (sleep step : Activity σ).run turns w = (.verdict v, later)) : FailsDynamically v := by
  simp only [sleep] at hrun
  split at hrun
  · cases hrun
    exact unexpected_dynamic step _
  · rcases Activity.verdict_of_rest hrun with rfl | rfl
    · exact failsDynamically_passed
    · exact failsDynamically_failure ⟨by decide, by decide⟩

/-- A script that the driver does not refuse fails only if nobody expects its answer. -/
theorem script_dynamic {w later : World σ} {v : Verdict}
    (hrun : (script x step).runAlone w = (some v, later)) :
    FailsDynamically v ∨
      ∃ error, ((x.session.runScript step.actionValue).runAlone w).1 = some (.error error) := by
  rcases script_cases x step hrun with ⟨e, refused, -⟩ | rfl | ⟨value, -, -, rfl⟩
  · exact .inr ⟨e, refused⟩
  · exact .inl failsDynamically_passed
  · rcases withText_cases step value .noted with ⟨text, -, heq⟩ | ⟨e, -, heq⟩
    · exact .inl (heq ▸ nofun)
    · exact .inl (heq ▸ unexpected_dynamic step e)

/-- A step without a selector kind to look for is refused before its first query, whatever the number
of its selectors. -/
theorem withElement_unknown (unknown : step.selectorKind = .unknown) (word : String)
    (body : ElementRef → Routine σ Verdict) (w : World σ) :
    (withElement x step word body).runAlone w =
      (some (.failure step Wait.Reason.selectorKind.message), w) := by
  simp [withElement, locate, Wait.element, unknown, Routine.runAlone_bind,
    Routine.runAlone_world, Routine.runAlone, notFoundMessage]

/-- A handler that is given a kind to look for, if it looks for an element, fails for dynamic reasons
only, or because the driver refuses a script. -/
theorem ofAction_dynamic (known : Lint.usesElement step.action = true → step.selectorKind ≠ .unknown)
    {turns : Nat} {w later : World σ} {v : Verdict}
    (hrun : (ofAction x step.action step).run turns w = (.verdict v, later)) :
    FailsDynamically v ∨ step.action = .script ∧
      ∃ error, ((x.session.runScript step.actionValue).runAlone w).1 = some (.error error) := by
  cases haction : step.action <;> simp only [haction] at hrun known
  case noop | invalid =>
    cases hrun
    exact .inl failsDynamically_passed
  case openPage =>
    exact .inl (Routine.Yields.of_run (concluding_dynamic step (c := 'o') rfl (by decide) _) hrun)
  case fill =>
    exact .inl (Routine.Yields.of_run (withElement_dynamic x step (known rfl) (c := 'f') rfl
      (by decide) fun _ => concluding_dynamic step (c := 'f') rfl (by decide) _) hrun)
  case click =>
    exact .inl (Routine.Yields.of_run (withElement_dynamic x step (known rfl) (c := 'c') rfl
      (by decide) fun _ => concluding_dynamic step (c := 'c') rfl (by decide) _) hrun)
  case check => exact .inl (Routine.Yields.of_run (check_dynamic x step (known rfl)) hrun)
  case select => exact .inl (Routine.Yields.of_run (select_dynamic x step (known rfl)) hrun)
  case script =>
    exact (script_dynamic x step (Activity.runAlone_of_run hrun)).imp_right fun quoted =>
      ⟨rfl, quoted⟩
  case waitAll | waitAny => exact .inl (several_dynamic x step (known rfl) _ hrun)
  case jump => exact .inl (Routine.Yields.of_run (jump_dynamic x step) hrun)
  case sleep => exact .inl (sleep_dynamic step hrun)

end

end Handler

namespace Run

section

variable (scale : TimeScale τ) (session : Session σ) (settings : RunSettings) (base : DateTime)
  (turns : Nat) {step : Step}

/-- The activity of a step that looks for an element of an unknown kind is refused at once. -/
theorem activity_of_unknown (uses : Lint.usesElement step.action = true)
    (unknown : step.selectorKind = .unknown) :
    ∃ r, activity (.full scale session settings base turns) step = .alone r ∧ ∀ w,
      r.runAlone w = (some (.failure step Wait.Reason.selectorKind.message), w) := by
  have hrefused (given : Step) (same : given.selectorKind = .unknown) (word : String)
      (body : ElementRef → Routine σ Verdict) :=
    Handler.withElement_unknown ⟨scale, session⟩ given same word body
  rw [Handler.activity_full]
  cases haction : step.action <;> simp only [haction, Lint.usesElement, Bool.false_eq_true] at uses
  case fill | click | check | select => exact ⟨_, rfl, hrefused step unknown _ _⟩
  case waitAll | waitAny =>
    simp only [reduceCtorEq, if_false, Handler.ofAction, Handler.several]
    split
    · exact ⟨_, rfl, hrefused { step with actionValue := "" } unknown _ _⟩
    · exact ⟨_, rfl, fun w => rfl⟩

theorem watchedActivity_of_unknown (uses : Lint.usesElement step.action = true)
    (unknown : step.selectorKind = .unknown) (w : World (Watched σ)) :
    (watchedActivity scale session settings base turns step).run turns w =
      (.verdict (.failure step Wait.Reason.selectorKind.message), w) := by
  obtain ⟨r, hactivity, hrefused⟩ :=
    activity_of_unknown scale (session.watched 0) settings base turns uses unknown
  simp only [watchedActivity, hactivity, Activity.run, hrefused]

end

/-- The step fails because the driver refuses its script, and says so in the driver's words. -/
def Execution.QuotesDriver (env : Env σ) (e : Execution σ) : Prop :=
  e.step.action = .script ∧ ∃ error,
    ((env.session.runScript e.step.actionValue).runAlone e.start.world).1 = some (.error error)

/-- The activity of a step fails with a message of its own. -/
def Execution.FailsWith (env : Env σ) (message : String) (e : Execution σ) : Prop :=
  (∃ v world, e.activityEnd env = (.verdict v, world) ∧ v.failed = true ∧ message ∈ v.entries) ∧
    ¬ e.QuotesDriver env

/-- The finish marker of a step is processed, writes no sample and says why. -/
def Execution.Rejects (env : Env σ) (v : Verdict) (world : World σ) (fault : MarkerFault)
    (e : Execution σ) : Prop :=
  e.measured env v world =
    (true, ({ e.noted env v.entries world with pending := none }).note env e.step.name fault.message)

/-- A finish marker for which a start is pending is rejected exactly for a foreign slot. -/
theorem rejects_unknownSlot_iff {env : Env σ} {e : Execution σ} {v : Verdict} {world : World σ}
    (processed : e.step.marker = .finish ∧ v.stop = false)
    (pending : (e.noted env v.entries world).pending ≠ none) :
    e.Rejects env v world .unknownSlot ↔ e.step.measureSlot ∉ measureSlots := by
  obtain ⟨start, hstart⟩ := Option.ne_none_iff_exists'.mp pending
  by_cases known : e.step.measureSlot ∈ measureSlots
  · refine iff_of_false (fun rejects => ?_) (not_not_intro known)
    have hanswer := congrArg Prod.fst rejects
    simp [Execution.measured, markFinish, processed, hstart, Measure.settle, Measure.finish,
      known] at hanswer
  · refine iff_of_true ?_ known
    simp [Execution.Rejects, Execution.measured, markFinish, processed, hstart, Measure.settle,
      Measure.finish, known, State.note, State.now]

section

variable {scale : TimeScale τ} {session : Session σ} {settings : RunSettings} {base : DateTime}
  {turns : Nat} {e : Execution σ}

/-- A step that is neither invalid nor without a kind to look for fails for dynamic reasons only. -/
theorem not_failsWith {message : String} (static : ¬ Handler.Dynamic message)
    (valid : e.step.action ≠ .invalid)
    (known : Lint.usesElement e.step.action = true → e.step.selectorKind ≠ .unknown) :
    ¬ e.FailsWith (.full scale session settings base turns) message := by
  rintro ⟨⟨v, world, answered, failed, member⟩, unquoted⟩
  rw [Execution.activityEnd, Handler.activity_full, if_neg valid] at answered
  rcases Handler.ofAction_dynamic ⟨scale, session⟩ e.step known answered with dynamic | quoted
  · exact static (dynamic failed message member)
  · exact unquoted quoted

theorem activityEnd_of_invalid (invalid : e.step.action = .invalid) :
    e.activityEnd (.full scale session settings base turns) =
      (.verdict (.failure e.step Handler.invalidAction), e.start.world) := by
  rw [Execution.activityEnd, Handler.activity_full, if_pos invalid]
  rfl

theorem activityEnd_of_unknown (uses : Lint.usesElement e.step.action = true)
    (unknown : e.step.selectorKind = .unknown) :
    e.activityEnd (.full scale session settings base turns) =
      (.verdict (.failure e.step Wait.Reason.selectorKind.message), e.start.world) := by
  obtain ⟨r, hactivity, hrefused⟩ :=
    activity_of_unknown scale session settings base turns uses unknown
  simp only [Execution.activityEnd, hactivity, Activity.run, hrefused]

theorem failsWith_invalidAction_iff :
    e.FailsWith (.full scale session settings base turns) Handler.invalidAction ↔
      e.step.action = .invalid := by
  constructor
  · intro fails
    by_contra valid
    by_cases refused : Lint.usesElement e.step.action = true ∧ e.step.selectorKind = .unknown
    · obtain ⟨⟨v, world, answered, -, member⟩, -⟩ := fails
      cases answered.symm.trans (activityEnd_of_unknown refused.1 refused.2)
      exact absurd (List.mem_singleton.mp member) (by decide)
    · exact not_failsWith (fun dynamic => dynamic.1 rfl) valid (fun uses unknown =>
        refused ⟨uses, unknown⟩) fails
  · intro invalid
    exact ⟨⟨_, _, activityEnd_of_invalid invalid, rfl, List.mem_singleton_self _⟩,
      fun quotes => absurd (invalid.symm.trans quotes.1) (by decide)⟩

theorem failsWith_selectorKind_iff :
    e.FailsWith (.full scale session settings base turns) Wait.Reason.selectorKind.message ↔
      Lint.usesElement e.step.action = true ∧ e.step.selectorKind = .unknown := by
  constructor
  · intro fails
    by_contra known
    by_cases invalid : e.step.action = .invalid
    · obtain ⟨⟨v, world, answered, -, member⟩, -⟩ := fails
      cases answered.symm.trans (activityEnd_of_invalid invalid)
      exact absurd (List.mem_singleton.mp member) (by decide)
    · exact not_failsWith (fun dynamic => dynamic.2 rfl) invalid (fun uses unknown =>
        known ⟨uses, unknown⟩) fails
  · rintro ⟨uses, unknown⟩
    refine ⟨⟨_, _, activityEnd_of_unknown uses unknown, rfl, List.mem_singleton_self _⟩, ?_⟩
    rintro ⟨script, -⟩
    simp [script, Lint.usesElement] at uses

end

/-- The checks of a step list and its runs agree on what is wrong with a step in itself, if the checks
come to their end; they do unless a step has an issue that names a number too long, and then report
nothing. An executed step fails as invalid, or for its selector kind, exactly if that is reported at its
index; in the latter case its activity does the same with its queries noted, and there are none. A finish
marker that is processed while a start is pending is rejected for its slot exactly if that is
reported. -/
theorem run_static_errors (scale : TimeScale τ) (session : Session σ) (settings : RunSettings)
    (base : DateTime) (turns : Nat) (steps : List Step) (order : Order) (bound : Nat)
    (world : World σ) (files : FileTree) :
    let env := Env.full scale session settings base turns
    (Lint.Complete steps ↔ ∀ step ∈ steps, ¬ Lint.PrintsLong steps.length step) ∧
    ∀ e ∈ history env steps order bound world files,
      (Lint.Reports steps "invalid-action" e.index ↔
        Lint.Complete steps ∧ e.FailsWith env Handler.invalidAction) ∧
      (Lint.Reports steps "invalid-selector-type" e.index ↔
        Lint.Complete steps ∧ e.FailsWith env Wait.Reason.selectorKind.message) ∧
      (e.FailsWith env Wait.Reason.selectorKind.message →
        let noted := (watchedActivity scale session settings base turns e.step).run turns
          e.start.world.watched
        e.activityEnd env = (noted.1, noted.2.map Watched.shared) ∧
          ∀ i, noted.2.shared.asked i = []) ∧
      ∀ v after, e.activityEnd env = (.verdict v, after) → e.step.marker = .finish →
        v.stop = false → (e.noted env v.entries after).pending ≠ none →
          (Lint.Reports steps "invalid-measure" e.index ↔
            Lint.Complete steps ∧ e.Rejects env v after .unknownSlot) := by
  intro env
  refine ⟨Lint.complete_iff, fun e member => ?_⟩
  obtain ⟨u, hcourse, -⟩ := run_course env steps order bound world files
  have here : steps[e.index]? = some e.step := hcourse.here e member
  refine ⟨?_, ?_, ?_, ?_⟩
  · rw [failsWith_invalidAction_iff]
    exact Lint.reports_invalidAction_iff here
  · rw [failsWith_selectorKind_iff]
    exact Lint.reports_invalidSelectorKind_iff here
  · intro fails noted
    obtain ⟨uses, unknown⟩ := failsWith_selectorKind_iff.mp fails
    have hnoted : noted = (.verdict (.failure e.step Wait.Reason.selectorKind.message),
        e.start.world.watched) :=
      watchedActivity_of_unknown scale session settings base turns uses unknown _
    rw [hnoted]
    exact ⟨activityEnd_of_unknown uses unknown, fun i => rfl⟩
  · intro v after answered finish stays pending
    rw [rejects_unknownSlot_iff ⟨finish, stays⟩ pending, Lint.reports_invalidSlot_iff here,
      and_iff_right finish]

/-- An action that there is none of, and a step with an unknown selector kind and a foreign slot. -/
def mistakenSteps : List Step :=
  [{ name := "a", action := .invalid, marker := .start },
    { name := "b", action := .fill, selectorKind := .unknown, marker := .finish, measureSlot := 9 }]

theorem run_static_errors_of_mistaken :
    let env := Env.full .binary cancellingSession {} ⟨0⟩ 0
    ∃ d e, history env mistakenSteps {} 2 { shared := () } {} = [d, e] ∧
      d.FailsWith env Handler.invalidAction ∧
      e.FailsWith env Wait.Reason.selectorKind.message ∧
      (∀ i, ((watchedActivity .binary cancellingSession {} ⟨0⟩ 0 e.step).run 0
        e.start.world.watched).2.shared.asked i = []) ∧
      e.Rejects env (.failure e.step Wait.Reason.selectorKind.message) e.start.world
        .unknownSlot := by
  intro env
  let es := history env mistakenSteps {} 2 { shared := () } {}
  have hseen : es.map (fun e => (e.step, e.index, e.start.pending)) =
      [(mistakenSteps[0], 0, none), (mistakenSteps[1], 1, some ⟨0⟩)] := by decide +kernel
  obtain ⟨d, rest, hes, hd, hrest⟩ := List.map_eq_cons_iff.mp hseen
  obtain ⟨e, last, rfl, he, hlast⟩ := List.map_eq_cons_iff.mp hrest
  obtain rfl := List.map_eq_nil_iff.mp hlast
  rw [Prod.mk.injEq, Prod.mk.injEq] at hd he
  obtain ⟨-, agrees⟩ := run_static_errors .binary cancellingSession {} ⟨0⟩ 0 mistakenSteps {} 2
    { shared := () } {}
  have first : d ∈ es := by simp [hes]
  have second : e ∈ es := by simp [hes]
  obtain ⟨invalid_iff, -⟩ := agrees d first
  obtain ⟨-, unknown_iff, unasked, rejected_iff⟩ := agrees e second
  rw [hd.2.1] at invalid_iff
  rw [he.2.1] at unknown_iff rejected_iff
  have unknown := (unknown_iff.mp (by decide +kernel)).2
  refine ⟨d, e, hes, (invalid_iff.mp (by decide +kernel)).2, unknown, (unasked unknown).2, ?_⟩
  have uses : Lint.usesElement e.step.action = true := by rw [he.1]; rfl
  have kind : e.step.selectorKind = .unknown := by rw [he.1]; rfl
  have finish : e.step.marker = .finish := by rw [he.1]; rfl
  have stays : e.step.stopOnError = false := by rw [he.1]; rfl
  refine ((rejected_iff _ _ (activityEnd_of_unknown uses kind) finish stays ?_).mp
    (by decide +kernel)).2
  simp [Execution.noted, noteAll_eq, markStart_eq, finish, he.2.2]

/-- A step with an invalid action, and with a slot that has too many digits to be written. -/
def longSlotStep : Step :=
  { name := "a", action := .invalid, marker := .finish, measureSlot := Nat.pow 10 Text.digitLimit }

/-- The checks of a list can break off without an answer where a run refuses a step as invalid. -/
theorem run_static_errors_not_exact :
    let env := Env.full .binary cancellingSession {} ⟨0⟩ 0
    ∃ e, history env [longSlotStep] {} 1 { shared := () } {} = [e] ∧ e.index = 0 ∧
      e.FailsWith env Handler.invalidAction ∧ Lint.issues [longSlotStep] = .error .tooLong ∧
      ¬ Lint.Reports [longSlotStep] "invalid-action" 0 := by
  intro env
  let es := history env [longSlotStep] {} 1 { shared := () } {}
  have hseen : es.map (fun e => (e.step, e.index)) = [(longSlotStep, 0)] := by decide +kernel
  obtain ⟨e, last, hes, he, hlast⟩ := List.map_eq_cons_iff.mp hseen
  obtain rfl := List.map_eq_nil_iff.mp hlast
  rw [Prod.mk.injEq] at he
  have invalid : e.step.action = .invalid := by rw [he.1]; rfl
  have broken : Lint.issues [longSlotStep] = .error .tooLong := by decide +kernel
  refine ⟨e, hes, he.2, failsWith_invalidAction_iff.mpr invalid, broken, ?_⟩
  rintro ⟨found, complete, -⟩
  cases broken.symm.trans complete

end Run

end BrowserSteps
