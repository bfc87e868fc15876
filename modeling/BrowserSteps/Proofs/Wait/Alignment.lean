import BrowserSteps.Proofs.Run.Completion
import BrowserSteps.Proofs.Wait.Lateness

/-!
What several waits bring belongs to their selectors. The waits of a step end in any order, and each
of their answers stands in the place of its selector: it is what the last query of that wait found,
and all queries of that wait were about that selector. A step that waits for all elements, or for
any of them, is judged by these answers.
-/

namespace BrowserSteps

variable {σ τ : Type}

/-- What a query found; one that failed found nothing. -/
def Query.element? (q : Query) : Option ElementRef := q.answer.toOption.join

namespace Wait

/-- What the queries of a wait tell: they are all about its selector, the last of them found this,
and there is one if there has to be. -/
structure Told (kind : SelectorKind) (value : String) (due : Prop) (found : Option ElementRef)
    (queries : List Query) : Prop where
  about : ∀ q ∈ queries, q.kind = kind ∧ q.value = value
  last : queries.getLast?.bind Query.element? = found
  some : due → queries ≠ []

/-- A wait of a known kind with a bound above zero makes a query. -/
def MakesQuery (scale : TimeScale τ) (kind : SelectorKind) (limit : Number) : Prop :=
  kind ≠ .unknown ∧ ∀ span ∈ scale.limit? limit, 0 < scale.bound span

/-- In binary64 seconds every bound is above zero. -/
theorem makesQuery_binary {kind : SelectorKind} (known : kind ≠ .unknown) (limit : Number) :
    MakesQuery .binary kind limit := by
  refine ⟨known, fun span _ => ?_⟩
  simp only [TimeScale.binary]
  split
  · exact Nat.succ_pos _
  · exact Nat.pow_pos Nat.zero_lt_two

theorem limit?_binary_eq_none_iff {n : Int} :
    TimeScale.binary.limit? (.whole n) = none ↔ floatOfInt? n = none := by
  simp [TimeScale.binary, Number.toFloat?]

/-- The answer of a wait is what its queries tell. Only a limit beyond all spans is a failure. -/
def Answered (scale : TimeScale τ) (kind : SelectorKind) (limit : Number) (value : String) :
    Except Failure (Option ElementRef) → List Query → Prop
  | .ok found, queries => Told kind value (MakesQuery scale kind limit) found queries
  | .error _, _ => scale.limit? limit = none

theorem element_of_verdict {p : Plan τ} {found : Except Failure (Option ElementRef)} {elapsed : τ}
    {cancelled : Bool} {located : Located τ} (h : p.verdict found elapsed cancelled = .inl located) :
    located.element? = found.toOption.join := by
  unfold Plan.verdict at h
  split at h
  next element =>
    cases h
    rfl
  next nothing =>
    have missed : found.toOption.join = none := by
      rcases found with e | _ | element
      · rfl
      · rfl
      · exact absurd rfl (nothing element)
    rw [missed]
    split at h
    · cases h
      rfl
    · split at h
      · cases h
        rfl
      · cases h

theorem nothing_of_pause {p : Plan τ} {found : Except Failure (Option ElementRef)} {elapsed : τ}
    {cancelled : Bool} {pause : Nat} (h : p.verdict found elapsed cancelled = .inr pause) :
    found.toOption.join = none := by
  unfold Plan.verdict at h
  split at h
  next element => cases h
  next nothing =>
    rcases found with e | _ | element
    · rfl
    · rfl
    · exact absurd rfl (nothing element)

section

variable {i : Nat}

theorem stable_queries (p : List Query → Prop) :
    Stable (σ := σ) i fun w => p (w.shared.asked i) := by
  intro w later hlater h
  rw [hlater.1]
  exact h

variable (session : Session σ) (kind : SelectorKind) (value : String)

theorem told_find (due : Prop) :
    Traced i (fun w => Told kind value due none (w.shared.asked i))
      (fun answer w => Told kind value True answer.toOption.join (w.shared.asked i))
      ((session.watched i).find kind value) (session.find kind value) := by
  refine .find session kind value (stable_queries _) (fun _ => stable_queries _) ?_
  intro answer w before
  have hnoted : (w.apply { shared := w.shared.note i ⟨kind, value, answer, w.clock, w.cancelled⟩
      }).shared.asked i =
        w.shared.asked i ++ [⟨kind, value, answer, w.clock, w.cancelled⟩] :=
    Function.update_self ..
  rw [hnoted]
  refine ⟨fun q member => ?_, ?_, fun _ => by simp⟩
  · rcases List.mem_append.mp member with earlier | this
    · exact before.about q earlier
    · obtain rfl := List.mem_singleton.mp this
      exact ⟨rfl, rfl⟩
  · rw [List.getLast?_concat]
    rfl

/-- A wait ends with what its last query found, or goes on because that found nothing. -/
theorem told_poll (p : Plan τ) (start : Nat) {bound : Nat} {before due : Prop}
    (reaches : due → before ∨ 0 < bound) :
    Traced i (fun w => Told kind value before none (w.shared.asked i))
      (fun located w => Told kind value due located.element? (w.shared.asked i))
      (poll p ((session.watched i).find kind value) start bound)
      (poll p (session.find kind value) start bound) := by
  induction bound generalizing before with
  | zero =>
      refine .world fun w => .done (stable_queries _) ?_
      rintro now ⟨-, h⟩
      exact ⟨h.about, h.last, fun hdue => h.some ((reaches hdue).resolve_right (Nat.lt_irrefl 0))⟩
  | succ bound ih =>
      refine (told_find session kind value before).bind fun found => .world fun w => ?_
      simp only [show (w.map Watched.shared).clock = w.clock from rfl,
        show (w.map Watched.shared).cancelled = w.cancelled from rfl]
      cases hverdict : p.verdict found (p.scale.ofMicros (w.clock - start)) w.cancelled with
      | inl located =>
          refine .done (stable_queries _) ?_
          rintro now ⟨-, h⟩
          exact ⟨h.about, h.last.trans (element_of_verdict hverdict).symm, fun _ => h.some trivial⟩
      | inr pause =>
          have reached : due → True ∨ 0 < bound := fun _ => .inl trivial
          have honward := ih reached
          refine (Traced.pause (stable_queries _) honward pause).of_pre ?_
          rintro now ⟨-, h⟩
          exact nothing_of_pause hverdict ▸ h

theorem answered_element (scale : TimeScale τ) (limit : Number) (interval : τ) (heeds : Bool) :
    Traced i (fun w => w.shared.asked i = [])
      (fun result w => Answered scale kind limit value (result.map Located.element?)
        (w.shared.asked i))
      (element scale (session.watched i) kind value limit interval heeds)
      (element scale session kind value limit interval heeds) := by
  have hnone {due : Prop} (idle : ¬ due) : Told kind value due none [] :=
    ⟨by simp, rfl, fun h => absurd h idle⟩
  refine .world fun w => ?_
  split
  next unknown =>
    refine .done (stable_queries _) ?_
    rintro now ⟨-, untold⟩
    rw [untold]
    exact hnone fun makes => makes.1 unknown
  next known =>
    cases hlimit : scale.limit? limit with
    | none => exact .done (stable_queries _) fun now _ => hlimit
    | some span =>
        have reaches : MakesQuery scale kind limit → False ∨ 0 < scale.bound span :=
          fun makes => .inr (makes.2 span hlimit)
        have hpoll := told_poll (i := i) session kind value ⟨scale, span, interval, heeds⟩ w.clock
          reaches
        refine (hpoll.of_pre ?_).bind fun located => .done (stable_queries _) fun now h => h
        rintro now ⟨-, untold⟩
        rw [untold]
        exact hnone id

theorem answered_worker (scale : TimeScale τ) (limit : Number) (interval : τ) (heeds : Bool) :
    Traced i (fun w => w.shared.asked i = [])
      (fun result w => Answered scale kind limit value (result.map Slot.element)
        (w.shared.asked i))
      (worker scale (session.watched i) kind limit interval heeds value)
      (worker scale session kind limit interval heeds value) := by
  refine .world fun before => Traced.of_pre ?_ fun now h => h.2
  refine (answered_element session kind value scale limit interval heeds).bind fun result => ?_
  refine .world fun after => .done (stable_queries _) ?_
  rintro now ⟨-, h⟩
  cases result <;> exact h

end

/-- The answers of all waits, or the failure of one of them. -/
theorem collect_cases (selectors : List String) (results : List (Except Failure Slot)) :
    (∃ slots, results = slots.map .ok ∧ collect selectors results = .ok ⟨selectors, slots⟩) ∨
      ∃ e, .error e ∈ results ∧ collect selectors results = .error e := by
  have hmap : (∃ slots, results = slots.map .ok ∧ results.mapM id = .ok slots) ∨
      ∃ e, .error e ∈ results ∧ results.mapM id = .error e := by
    induction results with
    | nil => exact .inl ⟨[], rfl, rfl⟩
    | cons result rest ih =>
        cases result with
        | error e => exact .inr ⟨e, List.mem_cons_self, rfl⟩
        | ok slot =>
            rcases ih with ⟨slots, rfl, hrest⟩ | ⟨e, member, hrest⟩
            · exact .inl ⟨slot :: slots, rfl, by simp [hrest, bind, Except.bind, pure, Except.pure]⟩
            · exact .inr ⟨e, List.mem_cons_of_mem _ member, by simp [hrest, bind, Except.bind]⟩
  unfold collect
  rcases hmap with ⟨slots, hresults, hslots⟩ | ⟨e, member, hfailed⟩
  · exact .inl ⟨slots, hresults, by rw [hslots]; rfl⟩
  · exact .inr ⟨e, member, by rw [hfailed]; rfl⟩

/-- Waits for several elements at once: what they are told. -/
structure Waits (τ : Type) where
  scale : TimeScale τ
  kind : SelectorKind
  limit : Number
  interval : τ
  heeds : Bool := true
  selectors : List String

namespace Waits

variable (waits : Waits τ) (session : Session σ) (turns : Nat) (w : World σ)

/-- One wait for each selector. -/
def workers : List (Command.Routine σ Slot) :=
  waits.selectors.map
    (worker waits.scale session waits.kind waits.limit waits.interval waits.heeds)

/-- The same, each with its queries noted under its place. -/
def notedWorkers : List (Command.Routine (Watched σ) Slot) :=
  waits.selectors.mapIdx fun i =>
    worker waits.scale (session.watched i) waits.kind waits.limit waits.interval waits.heeds

/-- The waits come back: all of them ended, and none failed. -/
def Returns (several : Several) (later : World σ) : Prop :=
  ∃ results, Routine.runTogether turns (waits.workers session) w = (.ended results, later) ∧
    collect waits.selectors results = .ok several

/-- There is a slot for each selector, in their order, with what the last query of the wait in its
place found; all queries of that wait were about the selector. -/
structure Aligned (asked : Nat → List Query) (several : Several) : Prop where
  selectors : several.selectors = waits.selectors
  slots : several.slots.length = waits.selectors.length
  told : ∀ i selector slot, waits.selectors[i]? = some selector → several.slots[i]? = some slot →
    Told waits.kind selector (MakesQuery waits.scale waits.kind waits.limit) slot.element (asked i)

theorem noted_eq :
    Routine.runTogether turns (waits.workers session) w =
      ((Routine.runTogether turns (waits.notedWorkers session) w.watched).1,
        (Routine.runTogether turns (waits.notedWorkers session) w.watched).2.map
          Watched.shared) := by
  have hshadows : List.Forall₂ (Routine.Shadows Watched.shared) (waits.notedWorkers session)
      (waits.workers session) := by
    refine List.forall₂_of_length_eq_of_get (by simp [notedWorkers, workers]) fun i _ _ => ?_
    simp only [notedWorkers, workers, List.get_eq_getElem, List.getElem_mapIdx, List.getElem_map]
    exact (answered_worker session _ _ waits.scale waits.limit waits.interval waits.heeds).shadows
  exact Routine.Shadows.runTogether_eq hshadows turns w.watched

section

variable {waits session turns w} {results : List (Except Failure Slot)}

theorem noted_of_ended {later : World σ}
    (hrun : Routine.runTogether turns (waits.workers session) w = (.ended results, later)) :
    ∃ noted, Routine.runTogether turns (waits.notedWorkers session) w.watched =
      (.ended results, noted) ∧ noted.map Watched.shared = later := by
  rw [noted_eq, Prod.mk.injEq] at hrun
  exact ⟨_, Prod.ext hrun.1 rfl, hrun.2⟩

theorem length_of_ended {later : World σ}
    (hrun : Routine.runTogether turns (waits.workers session) w = (.ended results, later)) :
    results.length = waits.selectors.length := by
  rw [Routine.Group.length_of_run turns hrun]
  simp [Routine.Group.start, workers]

/-- The answer of each wait is what is noted under its place. -/
def AnsweredAt (waits : Waits τ) (i : Nat) (result : Except Failure Slot)
    (noted : World (Watched σ)) : Prop :=
  ∀ selector, waits.selectors[i]? = some selector →
    Answered waits.scale waits.kind waits.limit selector (result.map Slot.element)
      (noted.shared.asked i)

theorem meets_start (waits : Waits τ) (session : Session σ) (w : World σ) :
    Routine.Group.Meets watching waits.AnsweredAt w.watched
      (Routine.Group.start (waits.notedWorkers session) w.watched).members := by
  refine Routine.Group.meets_start fun i r at_i now hnow => ?_
  rw [notedWorkers, List.getElem?_mapIdx] at at_i
  obtain ⟨value, value_at, rfl⟩ := Option.map_eq_some_iff.mp at_i
  have hworker := (answered_worker (i := i) session waits.kind value waits.scale waits.limit
    waits.interval waits.heeds).meets now hnow.1
  refine hworker.of_post fun result later h other other_at => ?_
  obtain rfl := Option.some.inj (value_at.symm.trans other_at)
  exact h

/-- In whatever order the waits end, each answer is that of the wait in its place. -/
theorem answered_of_ended {noted : World (Watched σ)}
    (hrun : Routine.runTogether turns (waits.notedWorkers session) w.watched =
      (.ended results, noted)) {i : Nat} {selector : String} {result : Except Failure Slot}
    (selector_at : waits.selectors[i]? = some selector) (result_at : results[i]? = some result) :
    Answered waits.scale waits.kind waits.limit selector (result.map Slot.element)
      (noted.shared.asked i) :=
  (waits.meets_start session w).run watching_agree turns hrun result_at selector selector_at

/-- Nothing is noted under a place that no wait has. -/
theorem asked_beyond {close : Routine.Group.Close (Except Failure Slot)} {noted : World (Watched σ)}
    (hrun : Routine.runTogether turns (waits.notedWorkers session) w.watched = (close, noted))
    {i : Nat} (beyond : waits.selectors.length ≤ i) : noted.shared.asked i = [] := by
  have hlength : (Routine.Group.start (waits.notedWorkers session) w.watched).members.length =
      waits.selectors.length := by simp [Routine.Group.start, notedWorkers]
  have hrely : (watching i).rely w.watched
      (Routine.runTogether turns (waits.notedWorkers session) w.watched).2 :=
    (waits.meets_start session w).rely_run watching_agree turns fun j inside =>
      watching_agree (by omega)
  rw [hrun] at hrely
  exact hrely.1

theorem Returns.aligned {several : Several} {later : World σ}
    (h : waits.Returns session turns w several later) :
    ∃ results noted, Routine.runTogether turns (waits.notedWorkers session) w.watched =
        (.ended results, noted) ∧ noted.map Watched.shared = later ∧
      waits.Aligned noted.shared.asked several := by
  obtain ⟨results, hrun, hcollect⟩ := h
  obtain ⟨noted, hnoted, hlater⟩ := noted_of_ended hrun
  refine ⟨results, noted, hnoted, hlater, ?_⟩
  rcases collect_cases waits.selectors results with ⟨slots, hresults, hslots⟩ | ⟨e, -, hfailed⟩
  · obtain rfl := Except.ok.inj (hslots.symm.trans hcollect)
    have hlength := length_of_ended hrun
    rw [hresults, List.length_map] at hlength
    refine ⟨rfl, hlength, fun i selector slot selector_at slot_at => ?_⟩
    have result_at : results[i]? = some (.ok slot) := by
      rw [hresults, List.getElem?_map, slot_at]
      rfl
    exact answered_of_ended hnoted selector_at result_at
  · cases hfailed.symm.trans hcollect

/-- Waits that all ended came back, unless the limit is beyond all spans. -/
theorem returns_of_ended {later : World σ}
    (hrun : Routine.runTogether turns (waits.workers session) w = (.ended results, later)) :
    (∃ several, collect waits.selectors results = .ok several) ∨
      waits.scale.limit? waits.limit = none := by
  rcases collect_cases waits.selectors results with ⟨slots, -, hslots⟩ | ⟨e, member, -⟩
  · exact .inl ⟨_, hslots⟩
  · obtain ⟨i, failed_at⟩ := List.mem_iff_getElem?.mp member
    have inside : i < waits.selectors.length :=
      length_of_ended hrun ▸ (List.getElem?_eq_some_iff.mp failed_at).1
    obtain ⟨noted, hnoted, -⟩ := noted_of_ended hrun
    exact .inr (answered_of_ended hnoted (List.getElem?_eq_getElem inside) failed_at)

end

end Waits

theorem Several.all_iff {several : Several} (h : several.slots.length = several.selectors.length) :
    several.all = true ↔ ∀ slot ∈ several.slots, slot.element ≠ none := by
  simp [all, found, ← h, List.countP_eq_length, Option.isSome_iff_ne_none]

theorem Several.any_iff (several : Several) :
    several.any = true ↔ ∃ slot ∈ several.slots, slot.element ≠ none := by
  simp [any, found, Option.isSome_iff_ne_none]

end Wait

namespace Handler

/-- The judgement on waits that came back: a step that needs all elements fails if one is missing,
one that needs any fails if all are, and either way the durations are told first. -/
theorem judge_of_returned (step : Step) (needsAll isCancelled : Bool) {several : Wait.Several}
    (h : several.slots.length = several.selectors.length) :
    let v := judge step needsAll isCancelled (.ok several)
    (v.failed = true ↔ if needsAll then ∃ slot ∈ several.slots, slot.element = none
      else ∀ slot ∈ several.slots, slot.element = none) ∧
    v.entries.head? = some ("Duration: " ++ ",".intercalate
      (several.slots.map fun slot => toString slot.millis)) := by
  intro v
  have hfailed : v.failed = !(if needsAll then several.all else several.any) := by
    simp only [v, judge, Verdict.after]
    cases (if needsAll then several.all else several.any) with
    | true => rfl
    | false => cases isCancelled <;> rfl
  refine ⟨?_, ?_⟩
  · rw [hfailed]
    cases needsAll with
    | true =>
        have hall := Wait.Several.all_iff h
        simp only [if_true, Bool.not_eq_true', ← Bool.not_eq_true, hall]
        simp
    | false =>
        have hany := several.any_iff
        simp only [Bool.false_eq_true, if_false, Bool.not_eq_true', ← Bool.not_eq_true, hany]
        simp
  · simp [v, judge, Verdict.after, Wait.Several.report, Wait.Several.report.durationReport,
      List.map_map, Function.comp_def]

/-- The waits of a step for several elements. -/
def waits (scale : TimeScale τ) (step : Step) : Wait.Waits τ where
  scale
  kind := step.selectorKind
  limit := .whole step.timeoutSeconds
  interval := scale.interval
  selectors := step.selectors

theorem several_eq (x : Setting σ τ) (needsAll : Bool) {step : Step}
    (more : 2 ≤ step.selectors.length) (known : step.selectorKind ≠ .unknown) :
    several x needsAll step = .together ((waits x.scale step).workers x.session)
      (judge step needsAll) step.selectors := by
  rw [several, if_neg (by omega), if_neg known]
  rfl

theorem activity_waits (scale : TimeScale τ) (session : Session σ) (settings : RunSettings)
    (base : DateTime) (turns : Nat) {step : Step}
    (action : step.action = .waitAll ∨ step.action = .waitAny)
    (more : 2 ≤ step.selectors.length) (known : step.selectorKind ≠ .unknown) :
    Run.activity (.full scale session settings base turns) step =
      .together ((waits scale step).workers session) (judge step (step.action = .waitAll))
        step.selectors := by
  rw [activity_full]
  rcases action with haction | haction <;>
    simp only [haction, reduceCtorEq, if_false, ofAction, several_eq _ _ more known, decide_true,
      decide_false]

end Handler

namespace Run

/-- Whatever the session answers and however long it takes, and in whatever order the waits end:
several waits that come back have a slot for each selector, in their order, with what the last query
of the wait in its place found, and that wait asked for nothing but its selector. So a step that
waits for all elements fails if and only if one was not found, and one that waits for any fails if
and only if none was found; either way it tells the durations first, in the order of the selectors.
Waits that are orderly do come to an end, which is the deadline only if there is one; and a step whose
waits ended has waits that came back, unless its limit is beyond all spans. -/
theorem waits_aligned (scale : TimeScale τ) (session : Session σ) (settings : RunSettings)
    (base : DateTime) (turns : Nat) (w : World σ) :
    (∀ (waits : Wait.Waits τ) several later, waits.Returns session turns w several later →
      ∃ results noted, Routine.runTogether turns (waits.notedWorkers session) w.watched =
          (.ended results, noted) ∧ noted.map Watched.shared = later ∧
        waits.Aligned noted.shared.asked several) ∧
    (∀ waits : Wait.Waits τ, (∀ kind value, (session.find kind value).Orderly false) →
      ∃ enough, ∀ more ≥ enough,
        (Routine.runTogether more (waits.workers session) w).1 ≠ .unfinished) ∧
    (w.Timely → ∀ (waits : Wait.Waits τ) later,
      Routine.runTogether turns (waits.workers session) w = (.cut, later) →
        w.deadline = some later.clock) ∧
    ∀ step : Step, step.action = .waitAll ∨ step.action = .waitAny →
      2 ≤ step.selectors.length → step.selectorKind ≠ .unknown →
      let run := (activity (.full scale session settings base turns) step).run turns w
      (∀ several later, (Handler.waits scale step).Returns session turns w several later →
        ∃ v, run = (.verdict v, later) ∧
          (step.action = .waitAll →
            (v.failed = true ↔ ∃ slot ∈ several.slots, slot.element = none)) ∧
          (step.action = .waitAny →
            (v.failed = true ↔ ∀ slot ∈ several.slots, slot.element = none)) ∧
          v.entries.head? = some ("Duration: " ++ ",".intercalate
            (several.slots.map fun slot => toString slot.millis))) ∧
      ∀ v later, run = (.verdict v, later) →
        (∃ several, (Handler.waits scale step).Returns session turns w several later) ∨
          scale.limit? (.whole step.timeoutSeconds) = none := by
  refine ⟨fun waits several later h => h.aligned, fun waits orderly => ?_,
    fun timely waits later hcut => ?_, ?_⟩
  · have hworkers : ∀ r ∈ waits.workers session, r.Orderly false := by
      intro r member
      obtain ⟨selector, -, rfl⟩ := List.mem_map.mp member
      exact Wait.orderly_worker waits.scale (orderly _ _) _ _ _
    obtain ⟨enough, close, finished, hclose⟩ := Routine.runTogether_completes hworkers w
    exact ⟨enough, fun more hmore => by rwa [hclose more hmore]⟩
  · have hbefore := Routine.before_runTogether turns (waits.workers session) timely
    rw [hcut] at hbefore
    exact hbefore.deadline.symm.trans (Routine.Group.deadline_of_run turns hcut)
  intro step action more known run
  have hrun : run = (Activity.together ((Handler.waits scale step).workers session)
      (Handler.judge step (step.action = .waitAll)) step.selectors).run turns w :=
    congrArg (·.run turns w)
      (Handler.activity_waits scale session settings base turns action more known)
  refine ⟨fun several later returned => ?_, fun v later hverdict => ?_⟩
  · obtain ⟨results, noted, -, -, aligned⟩ := returned.aligned
    have hslots : several.slots.length = several.selectors.length :=
      aligned.slots.trans (congrArg List.length aligned.selectors.symm)
    obtain ⟨results, hresults, hcollect⟩ := returned
    obtain ⟨hfailed, hentries⟩ :=
      Handler.judge_of_returned step (step.action = .waitAll) later.cancelled hslots
    refine ⟨Handler.judge step (step.action = .waitAll) later.cancelled (.ok several), ?_, ?_, ?_,
      hentries⟩
    · rw [hrun, Activity.run, hresults, ← hcollect]
      rfl
    · intro all
      simpa [all] using hfailed
    · intro any
      simpa [any] using hfailed
  · obtain ⟨results, hresults, -⟩ := Activity.runTogether_of_run (hrun.symm.trans hverdict)
    rcases Wait.Waits.returns_of_ended hresults with ⟨several, hcollect⟩ | beyond
    · exact .inl ⟨several, results, hresults, hcollect⟩
    · exact .inr beyond

end Run

end BrowserSteps
