import BrowserSteps.Proofs.Wait.Watch
import BrowserSteps.Proofs.Run.Verdict

/-!
How many queries a wait makes after a cancellation. A query is late if its answer comes in once the
cancellation has been requested, so that those are late that were under way at the request and those
that were made after it. A wait looks at the request after every answer, and so has at most one late
query, whatever the other waits of the step and their pauses do in between.
-/

namespace BrowserSteps

variable {σ τ : Type}

/-- How many queries of a wait were late. -/
def lateQueries (i : Nat) (w : World (Watched σ)) : Nat := (w.shared.asked i).countP (·.late)

/-- No query was late so far. -/
def NoneLate (i : Nat) (w : World (Watched σ)) : Prop := lateQueries i w = 0

/-- At most one query was late so far, and none before a cancellation. -/
def OneLate (i : Nat) (w : World (Watched σ)) : Prop :=
  lateQueries i w = 0 ∨ lateQueries i w = 1 ∧ w.cancelled = true

theorem lateQueries_of_rely {i : Nat} {w later : World (Watched σ)}
    (h : (watching i).rely w later) : lateQueries i later = lateQueries i w :=
  congrArg (List.countP _) h.1

theorem stable_noneLate (i : Nat) : Stable i (NoneLate (σ := σ) i) :=
  fun _ _ hlater h => (lateQueries_of_rely hlater).trans h

theorem stable_oneLate (i : Nat) : Stable i (OneLate (σ := σ) i) := by
  intro w later hlater h
  rw [OneLate, lateQueries_of_rely hlater]
  exact h.imp_right fun one => ⟨one.1, hlater.2 one.2⟩

theorem NoneLate.oneLate {i : Nat} {w : World (Watched σ)} (h : NoneLate i w) : OneLate i w :=
  .inl h

theorem OneLate.noneLate {i : Nat} {w : World (Watched σ)} (h : OneLate i w)
    (running : w.cancelled = false) : NoneLate i w :=
  h.resolve_right fun one => by simp [running] at one

theorem OneLate.le_one {i : Nat} {w : World (Watched σ)} (h : OneLate i w) :
    lateQueries i w ≤ 1 := by
  rcases h with none | ⟨one, -⟩ <;> omega

section

variable {i : Nat} (session : Session σ) (kind : SelectorKind) (value : String)

theorem traced_find :
    Traced i (NoneLate i) (fun _ => OneLate i) ((session.watched i).find kind value)
      (session.find kind value) := by
  refine .find session kind value (stable_noneLate i) (fun _ => stable_oneLate i) ?_
  intro answer w hw
  have hcount : lateQueries i (w.apply
      { shared := w.shared.note i ⟨kind, value, answer, w.clock, w.cancelled⟩ }) =
      if w.cancelled then 1 else 0 := by
    simp only [NoneLate, lateQueries] at hw
    simp [lateQueries, World.apply, Watched.note, hw, List.countP_singleton]
  rw [OneLate, hcount]
  cases hcancelled : w.cancelled <;> simp [World.apply, hcancelled]

/-- After an answer that comes in late the wait is over. -/
theorem traced_poll (p : Wait.Plan τ) (heeds : p.heeds = true) (start bound : Nat) :
    Traced i (NoneLate i) (fun _ => OneLate i)
      (Wait.poll p ((session.watched i).find kind value) start bound)
      (Wait.poll p (session.find kind value) start bound) := by
  induction bound with
  | zero =>
      refine .world fun w => .done (stable_oneLate i) ?_
      exact fun now hnow => hnow.2.oneLate
  | succ bound ih =>
      refine (traced_find session kind value).bind fun found => .world fun w => ?_
      simp only [show (w.map Watched.shared).clock = w.clock from rfl,
        show (w.map Watched.shared).cancelled = w.cancelled from rfl]
      cases hverdict : p.verdict found (p.scale.ofMicros (w.clock - start)) w.cancelled with
      | inl located => exact .done (stable_oneLate i) fun now hnow => hnow.2
      | inr pause =>
          -- The wait goes on only if the answer was not late.
          have running : w.cancelled = false := by
            cases hcancelled : w.cancelled with
            | false => rfl
            | true =>
                simp only [Wait.Plan.verdict, heeds, hcancelled] at hverdict
                split at hverdict
                · cases hverdict
                · split at hverdict <;> cases hverdict
          refine (Traced.pause (stable_noneLate i) ih pause).of_pre ?_
          rintro now ⟨rfl, hnow⟩
          exact hnow.noneLate running

theorem traced_element (scale : TimeScale τ) (limit : Number) (interval : τ) :
    Traced i (NoneLate i) (fun _ => OneLate i)
      (Wait.element scale (session.watched i) kind value limit interval true)
      (Wait.element scale session kind value limit interval true) := by
  refine .world fun w => ?_
  have hdone (answer : Except Failure (Wait.Located τ)) :
      Traced i (fun now => now = w ∧ NoneLate i now) (fun _ => OneLate i) (.done answer)
        (.done answer) :=
    .done (stable_oneLate i) fun now hnow => hnow.2.oneLate
  split
  · exact hdone _
  · cases scale.limit? limit with
    | none => exact hdone _
    | some limit =>
        refine Traced.of_pre ?_ fun now hnow => hnow.2
        refine (traced_poll session kind value ⟨scale, limit, interval, true⟩ rfl _ _).bind ?_
        exact fun located => .done (stable_oneLate i) fun now hnow => hnow

theorem traced_worker (scale : TimeScale τ) (limit : Number) (interval : τ) :
    Traced i (NoneLate i) (fun _ => OneLate i)
      (Wait.worker scale (session.watched i) kind limit interval true value)
      (Wait.worker scale session kind limit interval true value) := by
  refine .world fun before => Traced.of_pre ?_ fun now hnow => hnow.2
  refine (traced_element session kind value scale limit interval).bind fun result => ?_
  exact .world fun after => .done (stable_oneLate i) fun now hnow => hnow.2

end

namespace Handler

/-- A setting whose session notes the queries of one wait. -/
def Setting.watched (x : Setting σ τ) (i : Nat) : Setting (Watched σ) τ :=
  ⟨x.scale, x.session.watched i⟩

/-- A part of a step that makes no query, or makes none any more. -/
abbrev Keeps (i : Nat) {α : Type} (r' : Routine (Watched σ) α) (r : Routine σ α) : Prop :=
  Traced i (OneLate i) (fun _ => OneLate i) r' r

section

variable {i : Nat} (x : Setting σ τ) (step : Step)

theorem keeps_watched {α : Type} (r : Routine σ α) : Keeps i r.watched r :=
  .watched (stable_oneLate i) r

theorem keeps_done {α : Type} (value : α) : Keeps (σ := σ) i (.done value) (.done value) :=
  .done (stable_oneLate i) fun _ hw => hw

theorem keeps_concluding (word : String) (command : Command.Routine σ Unit) :
    Keeps i (concluding step word command.watched) (concluding step word command) := by
  refine (keeps_watched command).bind fun result => ?_
  cases result <;> exact keeps_done _

theorem traced_withElement (word : String) {body' : ElementRef → Routine (Watched σ) Verdict}
    {body : ElementRef → Routine σ Verdict} (h : ∀ element, Keeps i (body' element) (body element)) :
    Traced i (NoneLate i) (fun _ => OneLate i) (withElement (x.watched i) step word body')
      (withElement x step word body) := by
  refine (traced_element x.session _ _ x.scale _ _).bind fun result => ?_
  cases result with
  | error e => exact keeps_done _
  | ok located =>
      cases located with
      | found element elapsed => exact h element
      | missed reason elapsed => exact keeps_done _

theorem keeps_selectItem (items : List ElementRef) :
    Keeps i (selectItem (x.watched i) step items) (selectItem x step items) := by
  induction items with
  | nil => exact keeps_done _
  | cons item rest ih =>
      refine (keeps_watched (x.session.getText item)).bind fun result => ?_
      cases result with
      | error e => exact keeps_done _
      | ok text =>
          simp only
          split
          · exact keeps_concluding step _ _
          · exact ih

theorem traced_select :
    Traced i (NoneLate i) (fun _ => OneLate i) (select (x.watched i) step) (select x step) := by
  refine traced_withElement x step _ fun element => ?_
  refine (keeps_watched (x.session.children element "li")).bind fun result => ?_
  cases result with
  | error e => exact keeps_done _
  | ok items => exact keeps_selectItem x step items

theorem traced_check :
    Traced i (NoneLate i) (fun _ => OneLate i) (check (x.watched i) step) (check x step) := by
  refine traced_withElement x step _ fun element => ?_
  refine (keeps_watched (x.session.getText element)).bind fun result => ?_
  split <;> exact keeps_done _

theorem keeps_script : Keeps i (script (x.watched i) step) (script x step) := by
  refine (keeps_watched (x.session.runScript step.actionValue)).bind fun result => ?_
  split <;> exact keeps_done _

theorem keeps_jump : Keeps i (jump (x.watched i) step) (jump x step) := by
  refine (keeps_watched (x.session.runScript step.actionValue)).bind fun result => ?_
  split <;> exact keeps_done _

end

end Handler

namespace Activity

/-- An activity whose queries are noted: those of its one wait under number 0, those of several
waits each under the place of its selector. -/
inductive Watches (scale : TimeScale τ) (session : Session σ) :
    Activity (Watched σ) → Activity σ → Prop where
  | alone {r' : Routine (Watched σ) Verdict} {r : Routine σ Verdict}
      (traced : Traced 0 (NoneLate 0) (fun _ => OneLate 0) r' r) :
      Watches scale session (.alone r') (.alone r)
  | together (kind : SelectorKind) (limit : Number) (interval : τ) (selectors : List String)
      (judge : Bool → Except Failure Wait.Several → Verdict) :
      Watches scale session
        (.together (selectors.mapIdx fun i =>
          Wait.worker scale (session.watched i) kind limit interval true) judge selectors)
        (.together (selectors.map (Wait.worker scale session kind limit interval true)) judge
          selectors)
  | rest (micros : Nat) (ended woken : Verdict) (interrupted : String) :
      Watches scale session (.rest micros ended woken interrupted)
        (.rest micros ended woken interrupted)

variable {scale : TimeScale τ} {session : Session σ} {watched : Activity (Watched σ)}
  {activity : Activity σ}

theorem Watches.shadows (h : watched.Watches scale session activity) :
    watched.Shadows Watched.shared activity := by
  cases h with
  | alone traced => exact .alone traced.shadows
  | together kind limit interval selectors judge =>
      refine .together (List.forall₂_of_length_eq_of_get (by simp) fun i hi _ => ?_) judge selectors
      simp only [List.get_eq_getElem, List.getElem_mapIdx, List.getElem_map]
      exact (traced_worker session kind _ scale limit interval).shadows
  | rest micros ended woken interrupted => exact .rest micros ended woken interrupted

/-- The verdict on several waits is a judgement on what they answered. -/
theorem runTogether_of_run {workers : List (Command.Routine σ Wait.Slot)}
    {judge : Bool → Except Failure Wait.Several → Verdict} {selectors : List String} {turns : Nat}
    {w later : World σ} {v : Verdict}
    (hrun : (Activity.together workers judge selectors).run turns w = (.verdict v, later)) :
    ∃ results, Routine.runTogether turns workers w = (.ended results, later) ∧
      v = judge later.cancelled (Wait.collect selectors results) := by
  simp only [run] at hrun
  split at hrun
  next results after hresults =>
    cases hrun
    exact ⟨results, hresults, rfl⟩
  next => cases hrun
  next => cases hrun

/-- A rest lets time pass and does nothing else. -/
theorem rest_passes (micros turns : Nat) (ended woken : Verdict) (interrupted : String)
    (w : World σ) :
    (∃ last, ((Activity.rest micros ended woken interrupted).run turns w).2 = w.passTo last) ∨
      ((Activity.rest micros ended woken interrupted).run turns w).2 = w := by
  cases micros with
  | zero => exact .inr rfl
  | succ micros =>
      simp only [run]
      cases hcancelled : w.cancelled with
      | true => exact .inr (by simp [restUntil, hcancelled])
      | false =>
          obtain ⟨wake, verdict, -, heq⟩ := restUntil_eq hcancelled (w.clock + (micros + 1)) ended
            woken interrupted
          obtain ⟨last, hpassed⟩ := w.wait_eq_passTo wake
          refine .inl ⟨last, ?_⟩
          rw [heq, ← hpassed]
          rcases w.wait wake with ⟨_ | _, later⟩ <;> rfl

/-- Whatever order the waits of an activity get their turns in, each has at most one late query. -/
theorem Watches.lateQueries_le_one (h : watched.Watches scale session activity) {turns : Nat}
    {w : World σ} {later : World (Watched σ)} {v : Verdict}
    (hrun : watched.run turns w.watched = (.verdict v, later)) (i : Nat) :
    lateQueries i later ≤ 1 := by
  -- A wait that is not among those of the activity hears nothing of it.
  have hothers (unheard : (watching i).rely w.watched later) : lateQueries i later ≤ 1 := by
    rw [lateQueries_of_rely unheard]
    exact Nat.zero_le 1
  cases h with
  | alone traced =>
      have hmeets := traced.meets w.watched rfl
      have halone := runAlone_of_run hrun
      by_cases first : i = 0
      · subst first
        exact (hmeets.of_runAlone halone).le_one
      · apply hothers
        have hrely : (watching i).rely w.watched (Routine.runAlone _ w.watched).2 :=
          hmeets.rely_runAlone (watching_agree (Ne.symm first))
        rwa [halone] at hrely
  | together kind limit interval selectors judge =>
      obtain ⟨results, hworkers, -⟩ := runTogether_of_run hrun
      have hstart : Routine.Group.Meets watching (fun j _ => OneLate j) w.watched
          (Routine.Group.start (selectors.mapIdx fun j =>
            Wait.worker scale (session.watched j) kind limit interval true) w.watched).members := by
        refine Routine.Group.meets_start fun j r at_j later hlater => ?_
        rw [List.getElem?_mapIdx] at at_j
        obtain ⟨selector, -, rfl⟩ := Option.map_eq_some_iff.mp at_j
        exact (traced_worker session kind selector scale limit interval).meets later
          (stable_noneLate j _ _ hlater rfl)
      have hlength := Routine.Group.length_of_run turns hworkers
      by_cases among : i < results.length
      · exact (hstart.run watching_agree turns hworkers (List.getElem?_eq_getElem among)).le_one
      · apply hothers
        have hrely : (watching i).rely w.watched (Routine.runTogether turns _ w.watched).2 :=
          hstart.rely_run watching_agree turns fun j in_range => watching_agree (by omega)
        rwa [hworkers] at hrely
  | rest micros ended woken interrupted =>
      have hpasses := rest_passes micros turns ended woken interrupted w.watched
      rw [hrun] at hpasses
      rcases hpasses with ⟨last, rfl⟩ | rfl
      · exact hothers ((watching i).rely_passTo w.watched last)
      · exact hothers ((watching i).rely_refl w.watched)

end Activity

namespace Run

/-- The activity of a step in a session that notes the queries: those of its one wait under number 0,
those of several waits each under the place of its selector. -/
def watchedActivity (scale : TimeScale τ) (session : Session σ) (settings : RunSettings)
    (base : DateTime) (turns : Nat) (step : Step) : Activity (Watched σ) :=
  match activity (.full scale (session.watched 0) settings base turns) step with
  | .together _ judge selectors =>
    .together (selectors.mapIdx fun i =>
      Wait.worker scale (session.watched i) step.selectorKind (.whole step.timeoutSeconds)
        scale.interval true) judge selectors
  | other => other

theorem watches_watchedActivity (scale : TimeScale τ) (session : Session σ)
    (settings : RunSettings) (base : DateTime) (turns : Nat) (step : Step) :
    (watchedActivity scale session settings base turns step).Watches scale session
      (activity (.full scale session settings base turns) step) := by
  have hplain {r' : Routine (Watched σ) Verdict} {r : Routine σ Verdict}
      (keeps : Handler.Keeps 0 r' r) :
      (Activity.alone r').Watches scale session (.alone r) :=
    .alone (keeps.of_pre fun _ => NoneLate.oneLate)
  unfold watchedActivity
  rw [Handler.activity_full, Handler.activity_full]
  cases haction : step.action with
  | invalid => exact hplain (Handler.keeps_done _)
  | noop => exact hplain (Handler.keeps_done _)
  | openPage => exact hplain (Handler.keeps_concluding step _ _)
  | fill | click =>
      exact .alone (Handler.traced_withElement ⟨scale, session⟩ step _
        fun _ => Handler.keeps_concluding step _ _)
  | check => exact .alone (Handler.traced_check ⟨scale, session⟩ step)
  | select => exact .alone (Handler.traced_select ⟨scale, session⟩ step)
  | script => exact hplain (Handler.keeps_script ⟨scale, session⟩ step)
  | waitAll | waitAny =>
      simp only [reduceCtorEq, if_false, Handler.ofAction, Handler.several]
      by_cases single : step.selectors.length ≤ 1
      · simp only [single, if_true]
        exact .alone (Handler.traced_check ⟨scale, session⟩ _)
      · by_cases unknown : step.selectorKind = .unknown
        · simp only [single, unknown, if_true, if_false]
          exact hplain (Handler.keeps_done _)
        · simp only [single, unknown, if_false]
          exact .together _ _ _ _ _
  | jump => exact hplain (Handler.keeps_jump ⟨scale, session⟩ step)
  | sleep =>
      simp only [reduceCtorEq, if_false, Handler.ofAction, Handler.sleep]
      cases floatOfInt? (Handler.parseMillis step.actionValue) with
      | none => exact hplain (Handler.keeps_done _)
      | some _ => exact .rest _ _ _ _

end Run

end BrowserSteps
