import BrowserSteps.Proofs.Step.Selectors
import BrowserSteps.Proofs.Wait.Alignment
import BrowserSteps.Session.Direct

/-!
What a step that waits asks its session for. Several selectors are asked for one by one, as they are
without the blanks around them. A single selector is not: the step asks for its whole text, with the
blanks and the commas in it.
-/

namespace BrowserSteps

variable {σ τ : Type}

namespace Wait

/-- A wait made queries, and all of them were about its selector. -/
structure Probes (kind : SelectorKind) (value : String) (queries : List Query) : Prop where
  some : queries ≠ []
  about : ∀ q ∈ queries, q.kind = kind ∧ q.value = value

theorem probes_of_answered {scale : TimeScale τ} {kind : SelectorKind} {limit : Number}
    {value : String} {answer : Except Failure (Option ElementRef)} {queries : List Query}
    (makes : MakesQuery scale kind limit) (converts : scale.limit? limit ≠ none)
    (h : Answered scale kind limit value answer queries) : Probes kind value queries := by
  cases answer with
  | error e => exact absurd h converts
  | ok found => exact ⟨h.some makes, h.about⟩

end Wait

/-- The session was asked for this selector. -/
def Asked (w : World (Watched σ)) (kind : SelectorKind) (value : String) : Prop :=
  ∃ i, ∃ q ∈ w.shared.asked i, q.kind = kind ∧ q.value = value

/-- Waits each of which asked for its own selector asked for these selectors and for nothing else. -/
theorem asked_iff_of_probes {noted : World (Watched σ)} {kind : SelectorKind}
    {selectors : List String}
    (probes : ∀ i selector, selectors[i]? = some selector →
      Wait.Probes kind selector (noted.shared.asked i))
    (beyond : ∀ i, selectors.length ≤ i → noted.shared.asked i = [])
    (other : SelectorKind) (value : String) :
    Asked noted other value ↔ other = kind ∧ value ∈ selectors := by
  constructor
  · rintro ⟨i, q, asked, rfl, rfl⟩
    by_cases inside : i < selectors.length
    · obtain ⟨hkind, hvalue⟩ := (probes i _ (List.getElem?_eq_getElem inside)).about q asked
      exact ⟨hkind, hvalue ▸ List.getElem_mem inside⟩
    · rw [beyond i (Nat.le_of_not_lt inside)] at asked
      cases asked
  · rintro ⟨rfl, member⟩
    obtain ⟨i, at_i⟩ := List.mem_iff_getElem?.mp member
    have hprobes := probes i value at_i
    obtain ⟨q, asked⟩ := List.exists_mem_of_ne_nil _ hprobes.some
    exact ⟨i, q, asked, hprobes.about q asked⟩

namespace Handler

/-- What a step that checks an element asks for: its text as it is. -/
theorem probes_check {i : Nat} (x : Setting σ τ) (step : Step)
    (makes : Wait.MakesQuery x.scale step.selectorKind (.whole step.timeoutSeconds))
    (converts : x.scale.limit? (.whole step.timeoutSeconds) ≠ none) :
    Traced i (fun w => w.shared.asked i = [])
      (fun _ w => Wait.Probes step.selectorKind step.selectorValue (w.shared.asked i))
      (check (x.watched i) step) (check x step) := by
  have kept : Stable (σ := σ) i fun w =>
      Wait.Probes step.selectorKind step.selectorValue (w.shared.asked i) :=
    Wait.stable_queries (Wait.Probes step.selectorKind step.selectorValue)
  refine (Wait.answered_element x.session step.selectorKind step.selectorValue x.scale _ _ _).bind
    fun result => Traced.of_pre ?_ fun w h => Wait.probes_of_answered makes converts h
  cases result with
  | error e => exact .done kept fun _ => id
  | ok located =>
      cases located with
      | missed reason elapsed => exact .done kept fun _ => id
      | found element elapsed =>
          refine (Traced.watched kept (x.session.getText element)).bind fun text => ?_
          split <;> exact .done kept fun _ => id

end Handler

/-- Whether an activity came to a verdict. -/
def Exit.hasVerdict : Exit → Bool
  | .verdict _ => true
  | .cut _ | .unfinished => false

theorem Exit.hasVerdict_iff (exit : Exit) : exit.hasVerdict = true ↔ ∃ v, exit = .verdict v := by
  cases exit <;> simp [hasVerdict]

namespace Run

section

variable (scale : TimeScale τ) (session : Session σ) (settings : RunSettings) (base : DateTime)
  (turns : Nat) {step : Step}

theorem watchedActivity_several (action : step.action = .waitAll ∨ step.action = .waitAny)
    (more : 2 ≤ step.selectors.length) (known : step.selectorKind ≠ .unknown) :
    watchedActivity scale session settings base turns step =
      .together ((Handler.waits scale step).notedWorkers session)
        (Handler.judge step (step.action = .waitAll)) step.selectors := by
  rw [watchedActivity, Handler.activity_waits scale _ settings base turns action more known]
  rfl

theorem watchedActivity_single (action : step.action = .waitAll ∨ step.action = .waitAny)
    (single : step.selectors.length ≤ 1) :
    watchedActivity scale session settings base turns step =
      .alone (Handler.check (Handler.Setting.watched ⟨scale, session⟩ 0)
        { step with actionValue := "" }) := by
  unfold watchedActivity
  rw [Handler.activity_full]
  rcases action with haction | haction <;>
    simp only [haction, reduceCtorEq, if_false, Handler.ofAction, Handler.several, single, if_true] <;>
    rfl

end

section

variable {session : Session σ} {settings : RunSettings} {base : DateTime} {turns : Nat}
  {w : World σ} {noted : World (Watched σ)} {v : Verdict} {step : Step}

theorem asked_of_several (action : step.action = .waitAll ∨ step.action = .waitAny)
    (more : 2 ≤ step.selectors.length) (known : step.selectorKind ≠ .unknown)
    {scale : TimeScale τ} (makes : Wait.MakesQuery scale step.selectorKind (.whole step.timeoutSeconds))
    (converts : scale.limit? (.whole step.timeoutSeconds) ≠ none)
    (hrun : (watchedActivity scale session settings base turns step).run turns w.watched =
      (.verdict v, noted)) (kind : SelectorKind) (value : String) :
    Asked noted kind value ↔ kind = step.selectorKind ∧ value ∈ step.selectors := by
  rw [watchedActivity_several scale session settings base turns action more known] at hrun
  obtain ⟨results, hresults, -⟩ := Activity.runTogether_of_run hrun
  have hlength : results.length = step.selectors.length := by
    rw [Routine.Group.length_of_run turns hresults]
    simp [Routine.Group.start, Wait.Waits.notedWorkers, Handler.waits]
  refine asked_iff_of_probes (fun i selector at_i => ?_) (fun i beyond => ?_) kind value
  · have inside : i < results.length := hlength ▸ (List.getElem?_eq_some_iff.mp at_i).1
    exact Wait.probes_of_answered makes converts
      (Wait.Waits.answered_of_ended hresults at_i (List.getElem?_eq_getElem inside))
  · exact Wait.Waits.asked_beyond hresults beyond

theorem asked_of_single (action : step.action = .waitAll ∨ step.action = .waitAny)
    (single : step.selectors.length ≤ 1)
    {scale : TimeScale τ} (makes : Wait.MakesQuery scale step.selectorKind (.whole step.timeoutSeconds))
    (converts : scale.limit? (.whole step.timeoutSeconds) ≠ none)
    (hrun : (watchedActivity scale session settings base turns step).run turns w.watched =
      (.verdict v, noted)) (kind : SelectorKind) (value : String) :
    Asked noted kind value ↔ kind = step.selectorKind ∧ value = step.selectorValue := by
  rw [watchedActivity_single scale session settings base turns action single] at hrun
  have halone := Activity.runAlone_of_run hrun
  have hcheck := (Handler.probes_check (i := 0) ⟨scale, session⟩ { step with actionValue := "" } makes
    converts).meets w.watched rfl
  suffices hasked : Asked noted kind value ↔
      kind = step.selectorKind ∧ value ∈ [step.selectorValue] by rwa [List.mem_singleton] at hasked
  refine asked_iff_of_probes (fun i selector at_i => ?_) (fun i beyond => ?_) kind value
  · obtain ⟨rfl, rfl⟩ : i = 0 ∧ step.selectorValue = selector := by
      simpa [List.getElem?_singleton] using at_i
    exact hcheck.of_runAlone halone
  · have hrely : (watching i).rely w.watched (Routine.runAlone _ w.watched).2 :=
      hcheck.rely_runAlone (watching_agree (by simp at beyond; omega))
    rw [halone] at hrely
    exact hrely.1

end

/-- A step that waits for all of its selectors, or for any of them, asks for selectors of its kind and
for nothing else, and leaves none of them out, whatever the session answers and in whatever order the
waits end. If there are several, it asks for its parts without the blanks around them and without the
blank ones, so that neither make a difference. If there is only one, it asks for its whole text, which
is that selector exactly if it has no comma and no blanks around it. With turns enough such a step
comes to a verdict unless it is cut. -/
theorem wait_probes (session : Session σ) (settings : RunSettings) (base : DateTime) (turns : Nat)
    (w : World σ) {step : Step} (action : step.action = .waitAll ∨ step.action = .waitAny)
    (some : step.selectors ≠ []) (known : step.selectorKind ≠ .unknown)
    (converts : floatOfInt? step.timeoutSeconds ≠ none) :
    let run := (activity (.full .binary session settings base turns) step).run turns w
    let noted := (watchedActivity .binary session settings base turns step).run turns w.watched
    run = (noted.1, noted.2.map Watched.shared) ∧
    (∀ v, run.1 = .verdict v → ∀ kind value, Asked noted.2 kind value ↔
      kind = step.selectorKind ∧
        if step.selectors.length = 1 then value = step.selectorValue else value ∈ step.selectors) ∧
    (∀ v, run.1 = .verdict v →
      ((∀ value, Asked noted.2 step.selectorKind value ↔ value ∈ step.selectors) ↔
        2 ≤ step.selectors.length ∨ step.IsOneSelector)) ∧
    (∀ parts : List String, parts ≠ [] → (∀ part ∈ parts, ',' ∉ part.toList) →
      step.selectorValue = ",".intercalate parts → step.selectors = Step.stripped parts) ∧
    ((∀ kind value, (session.find kind value).Orderly false) → ∃ enough, ∀ more ≥ enough,
      ((activity (.full .binary session settings base turns) step).run more w).1 ≠ .unfinished) := by
  intro run noted
  have hsame : run = (noted.1, noted.2.map Watched.shared) :=
    (watches_watchedActivity .binary session settings base turns step).shadows.run_eq turns w.watched
  have makes := Wait.makesQuery_binary known (.whole step.timeoutSeconds)
  have hlimit := mt Wait.limit?_binary_eq_none_iff.mp converts
  have positive := List.length_pos_iff.mpr some
  have hasked (v : Verdict) (ended : run.1 = .verdict v) (kind : SelectorKind) (value : String) :
      Asked noted.2 kind value ↔ kind = step.selectorKind ∧
        if step.selectors.length = 1 then value = step.selectorValue
        else value ∈ step.selectors := by
    have hnoted : noted = (.verdict v, noted.2) :=
      Prod.ext ((congrArg Prod.fst hsame).symm.trans ended) rfl
    split
    next single => exact asked_of_single action (Nat.le_of_eq single) makes hlimit hnoted kind value
    next => exact asked_of_several action (by omega) known makes hlimit hnoted kind value
  refine ⟨hsame, hasked, fun v ended => ?_, fun parts nonempty whole written => ?_, fun orderly => ?_⟩
  · simp only [hasked v ended, true_and]
    by_cases single : step.selectors.length = 1
    · obtain ⟨selector, hselector⟩ := List.length_eq_one_iff.mp single
      simp only [← Step.selectors_eq_self_iff some, hselector, List.length_singleton, if_true,
        List.mem_singleton, List.cons.injEq, and_true]
      constructor
      · intro same
        exact .inr ((same step.selectorValue).mp rfl).symm
      · rintro (more | own)
        · exact absurd more (by decide)
        · simp [own]
    · simp only [single, if_false, iff_self, forall_const, true_iff]
      exact .inl (by omega)
  · exact Step.selectors_of_parts nonempty whole written
  · obtain ⟨enough, finished, hmore⟩ :=
      (Handler.orderly_activity .binary orderly settings base turns step).completes w
    exact ⟨enough, fun more hle => by rwa [hmore more hle]⟩

/-- A browser with an empty page. -/
def emptyBrowser : Browser Unit where
  call _ _ d := (⟨none, fun _ d => (⟨false, .ok (.element none)⟩, d)⟩, d)

theorem wait_probes_of_two_parts :
    let step : Step := { action := .waitAny, selectorValue := " x,, y", timeoutSeconds := 0 }
    let w : World Unit := { shared := () }
    let noted := (watchedActivity .binary (Session.direct emptyBrowser) {} ⟨0⟩ 9 step).run 9 w.watched
    (step.action = .waitAll ∨ step.action = .waitAny) ∧ step.selectors ≠ [] ∧
      step.selectorKind ≠ .unknown ∧ floatOfInt? step.timeoutSeconds ≠ none ∧
      (∃ v, noted.1 = .verdict v) ∧
      ∀ kind value, Asked noted.2 kind value ↔ kind = .id ∧ value ∈ ["x", "y"] := by
  intro step w noted
  have action : step.action = .waitAll ∨ step.action = .waitAny := .inr rfl
  have some : step.selectors ≠ [] := by decide +kernel
  have known : step.selectorKind ≠ .unknown := by decide
  have converts : floatOfInt? step.timeoutSeconds ≠ none := by decide +kernel
  obtain ⟨hsame, hasked, -⟩ := wait_probes (Session.direct emptyBrowser) {} ⟨0⟩ 9 w action some known
    converts
  obtain ⟨v, hv⟩ : ∃ v, noted.1 = .verdict v := noted.1.hasVerdict_iff.mp (by decide +kernel)
  have hselectors : step.selectors = ["x", "y"] := by decide +kernel
  refine ⟨action, some, known, converts, ⟨v, hv⟩, fun kind value => ?_⟩
  have hvalue := hasked v ((congrArg Prod.fst hsame).trans hv) kind value
  rwa [hselectors] at hvalue

/-- A step with one selector and a comma behind it asks for the comma too, and not for its selector. -/
theorem probe_of_trailing_comma :
    let step : Step := { action := .waitAll, selectorValue := "x,", timeoutSeconds := 0 }
    let w : World Unit := { shared := () }
    let noted := (watchedActivity .binary (Session.direct emptyBrowser) {} ⟨0⟩ 0 step).run 0 w.watched
    step.selectors = ["x"] ∧ step.selectorKind ≠ .unknown ∧ floatOfInt? step.timeoutSeconds ≠ none ∧
      (∃ v, noted.1 = .verdict v) ∧ Asked noted.2 .id "x," ∧ ¬ Asked noted.2 .id "x" := by
  intro step w noted
  have known : step.selectorKind ≠ .unknown := by decide
  have converts : floatOfInt? step.timeoutSeconds ≠ none := by decide +kernel
  have hselectors : step.selectors = ["x"] := by decide +kernel
  obtain ⟨v, hv⟩ : ∃ v, noted.1 = .verdict v := noted.1.hasVerdict_iff.mp (by decide +kernel)
  have makes := Wait.makesQuery_binary known (.whole step.timeoutSeconds)
  have hlimit := mt Wait.limit?_binary_eq_none_iff.mp converts
  have hasked (value : String) : Asked noted.2 .id value ↔ value = "x," :=
    (asked_of_single (.inl rfl) (Nat.le_of_eq (congrArg List.length hselectors)) makes hlimit
      (Prod.ext hv rfl) .id value).trans (and_iff_right rfl)
  exact ⟨hselectors, known, converts, ⟨v, hv⟩, (hasked "x,").mpr rfl,
    fun own => absurd ((hasked "x").mp own) (by decide)⟩

end Run

end BrowserSteps
