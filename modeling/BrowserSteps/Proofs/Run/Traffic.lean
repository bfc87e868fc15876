import BrowserSteps.Proofs.Routine.Sharing
import BrowserSteps.Proofs.Run.Completion
import BrowserSteps.Proofs.Run.ControlFlow
import BrowserSteps.Proofs.Run.Interruption
import BrowserSteps.Proofs.Run.Shadow
import BrowserSteps.Proofs.Session.Orderly
import BrowserSteps.Proofs.Session.Traffic
import BrowserSteps.Proofs.Wait.Lateness

/-!
The traffic of a run. In every run at most one command is under way at any instant, whatever the
waits of its steps, the latencies and failures of commands, cancellations and timeouts. Each of several
waits gives its commands in a name of its own, so that the log of a run shows that none of them gives
another once its step has ended.
-/

namespace BrowserSteps

variable {δ τ : Type}

open Traffic

namespace Wait

/-- One of several waits, in a name of its own: the place at which it joins. -/
def namedWorker (scale : TimeScale τ) (browser : Browser δ) (kind : SelectorKind) (limit : Number)
    (interval : τ) (selector : String) : Command.Routine (Owned (Traffic δ)) Slot :=
  (Routine.update fun w =>
      let events := noted w
      (events.length, { w.shared with browser :=
        { w.shared.browser with events := events ++ [.joined] } })).bind fun n =>
    worker scale (Session.exclusive (browser.logged (some n))) kind limit interval true selector

section

variable (scale : TimeScale τ) (browser : Browser δ) (kind : SelectorKind) (limit : Number)
  (interval : τ) (selector : String)

theorem conducts_worker (allowed : Option Nat → Prop) (who : Option Nat) :
    Conducts allowed who false
      (worker scale (Session.exclusive (browser.logged who)) kind limit interval true selector)
      (worker scale (Session.exclusive browser) kind limit interval true selector) :=
  related_worker conducts_congruence (related_exclusive browser) scale kind limit interval true
    selector

theorem shadows_namedWorker :
    (namedWorker scale browser kind limit interval selector).Shadows unlogged
      (worker scale (Session.exclusive browser) kind limit interval true selector) := by
  refine .note (fun _ => rfl) fun w => ?_
  exact (conducts_worker scale browser kind limit interval selector (fun _ => True) _).shadows

theorem orderly_namedWorker :
    (namedWorker scale browser kind limit interval selector).Orderly false := fun _ =>
  orderly_worker scale (Session.orderly_find_exclusive _ kind selector) limit interval true

/-- A wait that joins gives its commands in the name that it gets. -/
theorem keeps_namedWorker {before : List Event} {w : World (Owned (Traffic δ))}
    (since : before.length ≤ (noted w).length) :
    (namedWorker scale browser kind limit interval selector).Keeps (custody δ (New before))
      (fun _ still _ => still = false) false w := by
  have hworker := conducts_worker scale browser kind limit interval selector (New before)
    (some (noted w).length)
  refine ⟨Adds.join (New before) true (noted w), ?_⟩
  refine (hworker.keeps _ ⟨⟨⟨_, rfl, since⟩, ?_⟩, nofun⟩).of_post fun _ _ _ h => h.1
  rintro n ⟨⟩
  exact List.getElem?_concat_length

end

end Wait

namespace Run

/-- What is done in nobody's name, and leaves the traffic as it found it. -/
abbrev Unnamed {α : Type} (r' : Routine (Owned (Traffic δ)) α) (r : Routine (Owned δ) α) : Prop :=
  Conducts (· = none) none false r' r

section

variable (scale : TimeScale τ) (browser : Browser δ) (settings : RunSettings) (base : DateTime)
  (turns : Nat)

/-- The waits of a step for several elements, each in a name of its own. -/
def namedWorkers (step : Step) : List (Command.Routine (Owned (Traffic δ)) Wait.Slot) :=
  step.selectors.map (Wait.namedWorker scale browser step.selectorKind
    (.whole step.timeoutSeconds) scale.interval)

/-- Runs with all actions whose traffic is noted. -/
def Env.logged : Env (Owned (Traffic δ)) where
  session := Session.exclusive (browser.logged none)
  registry := .full fun action step =>
    (Handler.ofAction ⟨scale, Session.exclusive (browser.logged none)⟩ action step).withWorkers
      (namedWorkers scale browser step)
  settings := settings
  base := base
  turns := turns

theorem activity_logged (step : Step) :
    activity (.logged scale browser settings base turns) step =
      if step.action = .invalid then .alone (.done (.failure step Handler.invalidAction))
      else
        (Handler.ofAction ⟨scale, Session.exclusive (browser.logged none)⟩ step.action
          step).withWorkers (namedWorkers scale browser step) := by
  cases haction : step.action <;> simp [activity, haction] <;> rfl

theorem related_unnamed :
    (Session.exclusive (browser.logged none)).Related Unnamed (Session.exclusive browser) :=
  related_exclusive browser

theorem related_logged (step : Step) :
    (activity (.logged scale browser settings base turns) step).Related Unnamed
      (Routine.Shadows unlogged)
      (activity (.full scale (Session.exclusive browser) settings base turns) step) := by
  rw [activity_logged, Handler.activity_full]
  split
  · exact .alone (conducts_congruence.done _)
  · refine Handler.related_ofAction conducts_congruence (related_unnamed browser) scale step _ ?_
    rw [namedWorkers, List.forall₂_map_left_iff, List.forall₂_map_right_iff]
    exact List.forall₂_same.mpr fun selector _ => Wait.shadows_namedWorker ..

theorem named_of_logged {step : Step} {workers : List (Command.Routine (Owned (Traffic δ)) Wait.Slot)}
    {judge : Bool → Except Failure Wait.Several → Verdict} {selectors : List String}
    (h : activity (.logged scale browser settings base turns) step =
      .together workers judge selectors) : workers = namedWorkers scale browser step := by
  rw [activity_logged] at h
  split at h
  · cases h
  · generalize Handler.ofAction _ step.action step = activity at h
    cases activity <;> cases h
    rfl

end

section

variable {w : World (Owned (Traffic δ))} {α : Type}

/-- What is done in nobody's name leaves nothing under way, unless it is cut. -/
theorem traffic_runAlone {r' : Routine (Owned (Traffic δ)) α} {r : Routine (Owned δ) α}
    (h : Unnamed r' r) (idle : Idle (noted w)) :
    Leads ((r'.runAlone w).1 ≠ none) w (r'.runAlone w).2 := by
  have hkeeps := h.keeps w ⟨⟨rfl, nofun⟩, nofun⟩
  obtain ⟨last, hlast, hshared, hanswer⟩ := hkeeps.of_runAlone fun _ => idle
  have hadds : Adds (· = none) false (noted w) (noted last) := hlast
  have hnoted : noted (r'.runAlone w).2 = noted last := congrArg (·.browser.events) hshared
  constructor
  · rw [hnoted]
    exact hadds.of_allowed fun _ => unused_of_none
  · intro answered
    obtain ⟨value, hvalue⟩ := Option.ne_none_iff_exists'.mp answered
    obtain ⟨-, still, ⟨rfl, -⟩, free⟩ := hanswer value hvalue
    rw [hnoted]
    exact free rfl

/-- Several waits give commands only in names that they got when they joined. -/
theorem traffic_runTogether {workers : List (Routine (Owned (Traffic δ)) α)}
    (orderly : ∀ r ∈ workers, r.Orderly false)
    (keeps : ∀ r ∈ workers, ∀ later, (noted w).length ≤ (noted later).length →
      r.Keeps (custody δ (New (noted w))) (fun _ still _ => still = false) false later)
    (idle : Idle (noted w)) (turns : Nat) :
    Adds (New (noted w)) false (noted w) (noted (Routine.runTogether turns workers w).2) ∧
      ∀ values, (Routine.runTogether turns workers w).1 = .ended values →
        Idle (noted (Routine.runTogether turns workers w).2) := by
  have hstart : (Routine.Group.start workers w).Keeps (custody δ (New (noted w)))
      (fun _ _ _ => True) none := by
    -- Others may have joined before a wait gets its first turn.
    refine Routine.Group.keeps_start idle fun i r at_i later hlater => ?_
    have hadds : Adds (New (noted w)) false (noted w) (noted later) := hlater.1
    refine (keeps r (List.mem_of_getElem? at_i) later hadds.length_le).of_post ?_
    exact fun _ _ _ still => ⟨still, fun _ _ => trivial⟩
  obtain ⟨last, hlast, hlater, hended⟩ :=
    hstart.run turns (Routine.Group.orderly_start orderly w)
  have hnoted : noted (Routine.runTogether turns workers w).2 = noted last := by
    rcases hlater with same | ⟨cut, same⟩
    · exact congrArg noted same
    · exact (congrArg noted same :)
  rw [hnoted]
  exact ⟨hlast, fun values ended => (hended values ended).2.1⟩

end

section

variable (scale : TimeScale τ) (browser : Browser δ) (settings : RunSettings) (base : DateTime)
  (turns : Nat)

/-- The waits of a step give commands only in names that they got during the step. -/
theorem traffic_together {step : Step} {w : World (Owned (Traffic δ))} (idle : Idle (noted w))
    {workers : List (Command.Routine (Owned (Traffic δ)) Wait.Slot)}
    {judge : Bool → Except Failure Wait.Several → Verdict} {selectors : List String}
    (several : activity (.logged scale browser settings base turns) step =
      .together workers judge selectors) :
    Adds (New (noted w)) false (noted w) (noted (Routine.runTogether turns workers w).2) ∧
      ∀ values, (Routine.runTogether turns workers w).1 = .ended values →
        Idle (noted (Routine.runTogether turns workers w).2) := by
  obtain rfl := named_of_logged scale browser settings base turns several
  refine traffic_runTogether ?_ ?_ idle turns
  · intro r member
    obtain ⟨selector, -, rfl⟩ := List.mem_map.mp member
    exact Wait.orderly_namedWorker scale browser _ _ _ selector
  · intro r member later since
    obtain ⟨selector, -, rfl⟩ := List.mem_map.mp member
    exact Wait.keeps_namedWorker scale browser _ _ _ selector since

theorem world_run_together {σ : Type} (turns : Nat)
    (workers : List (Command.Routine σ Wait.Slot))
    (judge : Bool → Except Failure Wait.Several → Verdict) (selectors : List String) (w : World σ) :
    ((Activity.together workers judge selectors).run turns w).2 =
      (Routine.runTogether turns workers w).2 := by
  simp only [Activity.run]
  split <;> simp [*]

theorem traffic_activity (step : Step) {w : World (Owned (Traffic δ))} (idle : Idle (noted w)) :
    let ended := (activity (.logged scale browser settings base turns) step).run turns w
    Leads (∃ v, ended.1 = .verdict v) w ended.2 := by
  intro ended
  have hrelated := related_logged scale browser settings base turns step
  cases hactivity : activity (.logged scale browser settings base turns) step with
  | alone routine =>
      rw [hactivity] at hrelated
      have hleads : Leads ((routine.runAlone w).1 ≠ none) w (routine.runAlone w).2 := by
        generalize activity (.full scale (Session.exclusive browser) settings base turns) step =
          plain at hrelated
        cases hrelated with
        | alone related => exact traffic_runAlone related idle
      simp only [ended, hactivity, Activity.run]
      cases hrun : routine.runAlone w with
      | mk answer later =>
          rw [hrun] at hleads
          cases answer with
          | none => exact hleads.imp (by simp)
          | some v => exact hleads.imp (by simp)
  | together workers judge selectors =>
      obtain ⟨adds, answered⟩ := traffic_together scale browser settings base turns idle hactivity
      have hcontinues := adds.of_allowed fun _ => New.unused
      simp only [ended, hactivity, Activity.run]
      cases hrun : Routine.runTogether turns workers w with
      | mk answer later =>
          rw [hrun] at hcontinues answered
          cases answer with
          | ended results => exact ⟨hcontinues, fun _ => answered results rfl⟩
          | cut => exact ⟨hcontinues, by simp⟩
          | unfinished => exact ⟨hcontinues, by simp⟩
  | rest micros passed woken interrupted =>
      have hsame : noted ended.2 = noted w := by
        simp only [ended, hactivity]
        rcases Activity.rest_passes micros turns passed woken interrupted w with ⟨last, hlast⟩ | hlast
        · rw [hlast]
          rfl
        · rw [hlast]
      refine ⟨?_, fun _ => ?_⟩ <;> rw [hsame]
      · exact .refl _ _ _
      · exact idle

/-- A run whose traffic is noted is the run itself. -/
theorem shadows_logged :
    (Env.logged scale browser settings base turns).Shadows unlogged
      (.full scale (Session.exclusive browser) settings base turns) where
  activity step :=
    (related_logged scale browser settings base turns step).shadows fun _ _ related =>
      related.shadows
  screenshot := (related_unnamed browser).screenshot.shadows
  throttle latency download upload :=
    ((related_unnamed browser).throttle latency download upload).shadows
  settings := rfl
  base := rfl
  turns := rfl

end

/-- An environment whose routines leave nothing under way unless they are cut. -/
structure Env.Disciplined (env : Env (Owned (Traffic δ))) : Prop where
  activity : ∀ (step : Step) {w : World (Owned (Traffic δ))}, Idle (noted w) →
    Leads (∃ v, ((activity env step).run env.turns w).1 = .verdict v) w
      ((activity env step).run env.turns w).2
  screenshot : ∀ {w : World (Owned (Traffic δ))}, Idle (noted w) →
    Leads ((env.session.screenshot.runAlone w).1 ≠ none) w (env.session.screenshot.runAlone w).2
  throttle : ∀ (latency download upload : Int) {w : World (Owned (Traffic δ))}, Idle (noted w) →
    Leads (((env.session.throttle latency download upload).runAlone w).1 ≠ none) w
      ((env.session.throttle latency download upload).runAlone w).2

theorem disciplined_logged (scale : TimeScale τ) (browser : Browser δ) (settings : RunSettings)
    (base : DateTime) (turns : Nat) :
    (Env.logged scale browser settings base turns).Disciplined where
  activity step _ := traffic_activity scale browser settings base turns step
  screenshot := traffic_runAlone (related_unnamed browser).screenshot
  throttle latency download upload :=
    traffic_runAlone ((related_unnamed browser).throttle latency download upload)

/-- What the traffic of a run shows of one execution in it: it begins while nothing is under way, and
ends so unless it is cut, and then nothing follows. What follows is in other names. -/
structure Conducted (env : Env (Owned (Traffic δ))) (last : List Event)
    (e : Execution (Owned (Traffic δ))) : Prop where
  idle : Idle (noted e.start.world)
  during : Continues (noted e.start.world) (noted (e.activityEnd env).2)
  ended : ∀ v, (e.activityEnd env).1 = .verdict v → Idle (noted (e.activityEnd env).2)
  cut : ∀ entries, (e.activityEnd env).1 = .cut entries → last = noted (e.activityEnd env).2
  onward : Continues (noted (e.activityEnd env).2) last

section

variable {env : Env (Owned (Traffic δ))} {capturing : Bool} {steps : List Step}

theorem leads_saveScreenshot (h : env.Disciplined) {name : String}
    {s t : State (Owned (Traffic δ))} (idle : Idle (noted s.world))
    {part : Part (Except Failure Path)} (saved : saveScreenshot env name s = (part, t)) :
    Leads (part ≠ .cut) s.world t.world := by
  have hshot := h.screenshot idle
  unfold saveScreenshot at saved
  split at saved
  · cases saved
    exact .refl _ idle
  · cases hrun : env.session.screenshot.runAlone s.world with
    | mk answer world =>
        rw [hrun] at hshot
        simp only [hrun] at saved
        split at saved
        next impossible =>
          cases impossible
          cases saved
          exact hshot.imp fun uncut => absurd rfl uncut
        next answered =>
          cases answered
          cases saved
          exact hshot.imp nofun
        next answered =>
          cases answered
          have hanswered : Leads (part ≠ .cut) s.world world := hshot.imp nofun
          split at saved <;> cases saved <;> exact hanswered

theorem leads_markCapture (h : env.Disciplined) {step : Step} {s t : State (Owned (Traffic δ))}
    (idle : Idle (noted s.world)) {part : Part Bool}
    (captured : markCapture env capturing step s = (part, t)) :
    Leads (part ≠ .cut) s.world t.world := by
  cases captured_of_eq captured with
  | unasked => exact .refl _ idle
  | saved _ _ written => exact (leads_saveScreenshot h idle written).imp nofun
  | refused _ _ failed => exact (leads_saveScreenshot h idle failed).imp nofun
  | cut _ _ _ failed =>
      exact (leads_saveScreenshot h idle failed).imp fun uncut => absurd rfl uncut

theorem world_measured {σ : Type} (env : Env σ) (e : Execution σ) (v : Verdict) (world : World σ) :
    (e.measured env v world).2.world = world := by
  have hnoted : (e.noted env v.entries world).world = world := by
    rw [Execution.noted, noteAll_eq]
  have hfinished := e.finished env v world
  generalize e.measured env v world = measured at hfinished
  cases hfinished <;> exact hnoted

theorem Executes.leads (h : env.Disciplined) {e : Execution (Owned (Traffic δ))} {ending : StepEnd}
    {t : State (Owned (Traffic δ))} (executes : Executes env capturing e ending t)
    (idle : Idle (noted e.start.world)) :
    Leads (ending ≠ .cut ∧ ending ≠ .unfinished) (e.activityEnd env).2 t.world := by
  have hactivity := h.activity e.step idle
  have hcaptured {v : Verdict} {world : World (Owned (Traffic δ))} {part : Part Bool}
      {s : State (Owned (Traffic δ))} (answered : e.activityEnd env = (.verdict v, world))
      (captured : markCapture env capturing e.step (e.measured env v world).2 = (part, s)) :
      Leads (part ≠ .cut) (e.activityEnd env).2 s.world := by
    have hidle := hactivity.idle ⟨v, congrArg Prod.fst answered⟩
    change Idle (noted (e.activityEnd env).2) at hidle
    have hworld := world_measured env e v (e.activityEnd env).2
    rw [answered] at hidle hworld ⊢
    have hleads := leads_markCapture h (hworld ▸ hidle) captured
    rwa [hworld] at hleads
  cases executes with
  | ended v world unsaved s answered captured _ state_eq =>
      subst state_eq
      exact (hcaptured answered captured).imp nofun
  | cutInCapture v world answered captured ending_eq =>
      exact (hcaptured answered captured).imp fun uncut => absurd ending_eq uncut.1
  | cutInActivity entries world answered ending_eq state_eq =>
      rw [state_eq, answered, Execution.noted, noteAll_eq]
      exact ⟨.refl _ _ _, fun uncut => absurd ending_eq uncut.1⟩
  | unfinished world answered ending_eq state_eq =>
      rw [state_eq, answered]
      exact ⟨.refl _ _ _, fun complete => absurd ending_eq complete.2⟩

theorem Executes.conducted (h : env.Disciplined) {e : Execution (Owned (Traffic δ))}
    {ending : StepEnd} {t : State (Owned (Traffic δ))} (executes : Executes env capturing e ending t)
    (idle : Idle (noted e.start.world)) :
    Conducted env (noted t.world) e where
  idle := idle
  during := (h.activity e.step idle).continues
  ended v answered := (h.activity e.step idle).idle ⟨v, answered⟩
  cut entries ended := by
    cases executes with
    | ended _ _ _ _ answered | cutInCapture _ _ answered | unfinished _ answered =>
        rw [answered] at ended
        cases ended
    | cutInActivity entries world answered _ state_eq =>
        rw [state_eq, answered, Execution.noted, noteAll_eq]
  onward := (executes.leads h idle).continues

theorem Conducted.continues {e : Execution (Owned (Traffic δ))} {last : List Event}
    (h : Conducted env last e) : Continues (noted e.start.world) last :=
  h.during.trans h.onward

theorem Conducted.goesOn {e : Execution (Owned (Traffic δ))} {later last : List Event}
    (h : Conducted env later e) (uncut : ∀ entries, (e.activityEnd env).1 ≠ .cut entries)
    (onward : Continues later last) : Conducted env last e :=
  ⟨h.idle, h.during, h.ended, fun entries cut => absurd cut (uncut entries), h.onward.trans onward⟩

theorem Course.conducted (h : env.Disciplined) {s u : State (Owned (Traffic δ))}
    {es : List (Execution (Owned (Traffic δ)))} {reason : End}
    (course : Course env capturing steps s es reason u) (idle : Idle (noted s.world)) :
    Continues (noted s.world) (noted u.world) ∧ ∀ e ∈ es, Conducted env (noted u.world) e := by
  induction course with
  | finished | cancelled | bounded => exact ⟨.refl _ _ _, List.forall_mem_nil _⟩
  | next start here running executed onward ih =>
      subst start
      have hexecutes := Executes.of_executed executed
      -- What goes on was not cut, so that nothing is under way when the next step begins.
      obtain ⟨hcontinues, hrest⟩ := ih ((hexecutes.leads h idle).idle ⟨nofun, nofun⟩)
      obtain ⟨v, world, answered, -⟩ := verdict_of_goOn executed
      have hfirst := (hexecutes.conducted h idle).goesOn (fun _ => by simp [answered]) hcontinues
      exact ⟨hfirst.continues, List.forall_mem_cons.mpr ⟨hfirst, hrest⟩⟩
  | stopped start here running executed | cut start here running executed =>
      subst start
      have hexecutes := (Executes.of_executed executed).conducted h idle
      exact ⟨hexecutes.continues, List.forall_mem_singleton.mpr hexecutes⟩
  | waiting start here executed =>
      subst start
      have hexecutes := (Executes.of_executed executed).conducted h idle
      exact ⟨hexecutes.continues, List.forall_mem_nil _⟩

/-- Nothing is cut while the network conditions are set. -/
theorem idle_opening (h : env.Disciplined) (order : Order) {world : World (Owned (Traffic δ))}
    (idle : Idle (noted world)) (files : FileTree) :
    Idle (noted (opening env order world files).world) := by
  change Idle (noted (begun world)) at idle
  simp only [opening, world_prepareCapture, throttle]
  split
  · refine (h.throttle _ _ _ idle).idle fun cut => ?_
    have hdeadline := ((env.session.throttle env.settings.latency env.settings.download
      env.settings.upload).before_runAlone (timely_begun world)).deadline
    rw [Routine.deadline_of_runAlone _ (Prod.ext cut rfl)] at hdeadline
    cases hdeadline
  · exact idle

theorem history_conducted (h : env.Disciplined) (steps : List Step) (order : Order) (bound : Nat)
    {world : World (Owned (Traffic δ))} (idle : Idle (noted world)) (files : FileTree) :
    let last := noted (run env steps order bound world files).2.world
    InTurn last ∧ ∀ e ∈ history env steps order bound world files, Conducted env last e := by
  intro last
  have hopening := idle_opening h order idle files
  obtain ⟨u, hcourse, hended⟩ := run_course env steps order bound world files
  obtain ⟨hcontinues, hhistory⟩ := hcourse.conducted h hopening
  have hlast : last = noted u.world := by
    obtain ⟨log, outcomes, hclosing⟩ :=
      closing_eq env steps (run env steps order bound world files).1 u
    simp only [last, hended, hclosing]
    rfl
  rw [hlast]
  exact ⟨hcontinues.inTurn hopening.inTurn, hhistory⟩

end

/-- In every run in a session that lets one command at a time through, at most one command is under
way at any instant. The run is also made with its traffic noted, and the notes are all that differs.
The commands that a step for several elements gives are in names that its waits got when they joined
in that step; once the step has ended, no command is given any more in a name that somebody has by
then. A step that ends with a verdict leaves nothing under way, and nothing follows one that was cut. -/
theorem run_traffic (scale : TimeScale τ) (browser : Browser δ) (settings : RunSettings)
    (base : DateTime) (turns : Nat) (steps : List Step) (order : Order) (bound : Nat)
    (world : World (Owned δ)) (files : FileTree) :
    let logged := Env.logged scale browser settings base turns
    let ended := run logged steps order bound (world.map unnoted) files
    run (.full scale (Session.exclusive browser) settings base turns) steps order bound world files =
      (ended.1, ended.2.map unlogged) ∧
    InTurn (noted ended.2.world) ∧
    ∀ e ∈ history logged steps order bound (world.map unnoted) files,
      let (exit, later) := e.activityEnd logged
      (∀ workers judge selectors, activity logged e.step = .together workers judge selectors →
        workers = namedWorkers scale browser e.step ∧
        ∃ own, noted later = noted e.start.world ++ own ∧
          ∀ event ∈ own, event = .joined ∨ New (noted e.start.world) event.who) ∧
      (∃ rest, noted ended.2.world = noted later ++ rest ∧
        ∀ event ∈ rest, event = .joined ∨ Unused (noted later) event.who) ∧
      (∀ v, exit = .verdict v → underWay (noted later) = []) ∧
      ∀ entries, exit = .cut entries → noted ended.2.world = noted later := by
  intro logged ended
  have hdisciplined := disciplined_logged scale browser settings base turns
  have hidle : Idle (noted (world.map unnoted)) := idle_nil
  obtain ⟨inTurn, hhistory⟩ := history_conducted hdisciplined steps order bound hidle files
  refine ⟨run_map (shadows_logged scale browser settings base turns) steps order bound
    (world.map unnoted) files, inTurn, fun e member => ?_⟩
  have hconducted := hhistory e member
  refine ⟨fun workers judge selectors several => ?_, ?_, ?_, hconducted.cut⟩
  · have hworkers := named_of_logged scale browser settings base turns several
    obtain ⟨own, hown, -, names, -⟩ :=
      (traffic_together scale browser settings base turns hconducted.idle several).1
    refine ⟨hworkers, own, ?_, names⟩
    change noted ((activity logged e.step).run turns e.start.world).2 = _
    rw [← hown, several, world_run_together]
  · obtain ⟨rest, hrest, -, names, -⟩ := hconducted.onward
    exact ⟨rest, hrest, names⟩
  · exact fun v answered => (hconducted.ended v answered).nothing

/-- A browser that answers at once and has every element. -/
def promptBrowser : Browser Unit where
  call command _ d :=
    (⟨none, fun _ d =>
      (⟨false, match command with
        | .query selector => .ok (.element (some { key := selector }))
        | _ => .ok .nothing⟩, d)⟩, d)

example :
    let step : Step :=
      { name := "both", action := .waitAll, selectorKind := .id, selectorValue := "x,y" }
    let world : World (Owned Unit) :=
      { shared := { phase := .active, hasPage := true, browser := () } }
    noted (run (.logged .exact promptBrowser {} ⟨0⟩ 20) [step] {} 2 (world.map unnoted) {}).2.world =
      [.joined, .begun (some 0) (.query "id=x"), .ended (some 0) (.query "id=x"),
        .joined, .begun (some 3) (.query "id=y"), .ended (some 3) (.query "id=y")] := by
  decide +kernel

end Run

end BrowserSteps
