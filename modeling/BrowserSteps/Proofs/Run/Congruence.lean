import BrowserSteps.Proofs.Routine.Shadow
import BrowserSteps.Proofs.Run.Verdict

/-!
Steps in two sessions at once. What relates the commands of two sessions, and is kept by sequences,
pauses and looks at the world, relates all that steps do in them: a step is made of nothing else.
-/

namespace BrowserSteps

variable {σ τ υ : Type}

/-- A relation between the routines of two kinds of worlds that programs keep. -/
structure Routine.Congruence (seen : τ → σ)
    (R : ∀ {α : Type}, Routine τ α → Routine σ α → Prop) : Prop where
  done : ∀ {α : Type} (value : α), R (.done value) (.done value)
  bind : ∀ {α β : Type} {r' : Routine τ α} {r : Routine σ α} {f' : α → Routine τ β}
    {f : α → Routine σ β}, R r' r → (∀ value, R (f' value) (f value)) → R (r'.bind f') (r.bind f)
  pause : ∀ {α : Type} (micros : Nat) {next' : Routine τ α} {next : Routine σ α},
    R next' next → R (.pause micros next') (.pause micros next)
  world : ∀ {α : Type} {f' : World τ → Routine τ α} {f : World σ → Routine σ α},
    (∀ w, R (f' w) (f (w.map seen))) → R (Routine.world.bind f') (Routine.world.bind f)

/-- Two sessions with related commands. -/
structure Session.Related (R : ∀ {α : Type}, Routine τ α → Routine σ α → Prop)
    (session' : Session τ) (session : Session σ) : Prop where
  navigate : ∀ url, R (session'.navigate url) (session.navigate url)
  find : ∀ kind value, R (session'.find kind value) (session.find kind value)
  children : ∀ element tag, R (session'.children element tag) (session.children element tag)
  click : ∀ element, R (session'.click element) (session.click element)
  setText : ∀ element value, R (session'.setText element value) (session.setText element value)
  getText : ∀ element, R (session'.getText element) (session.getText element)
  runScript : ∀ source, R (session'.runScript source) (session.runScript source)
  screenshot : R session'.screenshot session.screenshot
  throttle : ∀ latency download upload,
    R (session'.throttle latency download upload) (session.throttle latency download upload)

/-- An activity with other routines in the place of its several waits, if it makes any. -/
def Activity.withWorkers (workers : List (Command.Routine σ Wait.Slot)) : Activity σ → Activity σ
  | .together _ judge selectors => .together workers judge selectors
  | activity => activity

/-- Two activities of one shape, with related routines: one relation is on what a step does alone,
the other on several waits. -/
inductive Activity.Related (R : Routine τ Verdict → Routine σ Verdict → Prop)
    (S : Command.Routine τ Wait.Slot → Command.Routine σ Wait.Slot → Prop) :
    Activity τ → Activity σ → Prop where
  | alone {r' : Routine τ Verdict} {r : Routine σ Verdict} (related : R r' r) :
      Related R S (.alone r') (.alone r)
  | together {workers' : List (Command.Routine τ Wait.Slot)}
      {workers : List (Command.Routine σ Wait.Slot)} (related : List.Forall₂ S workers' workers)
      (judge : Bool → Except Failure Wait.Several → Verdict) (selectors : List String) :
      Related R S (.together workers' judge selectors) (.together workers judge selectors)
  | rest (micros : Nat) (ended woken : Verdict) (interrupted : String) :
      Related R S (.rest micros ended woken interrupted) (.rest micros ended woken interrupted)

theorem Activity.Related.imp {R R' : Routine τ Verdict → Routine σ Verdict → Prop}
    {S S' : Command.Routine τ Wait.Slot → Command.Routine σ Wait.Slot → Prop}
    {activity' : Activity τ} {activity : Activity σ} (h : activity'.Related R S activity)
    (hR : ∀ r' r, R r' r → R' r' r) (hS : ∀ r' r, S r' r → S' r' r) :
    activity'.Related R' S' activity := by
  cases h with
  | alone related => exact .alone (hR _ _ related)
  | together related judge selectors =>
      exact .together (related.imp fun _ _ => hS _ _) judge selectors
  | rest micros ended woken interrupted => exact .rest micros ended woken interrupted

theorem Activity.Related.shadows {seen : τ → σ} {R : Routine τ Verdict → Routine σ Verdict → Prop}
    {activity' : Activity τ} {activity : Activity σ}
    (h : activity'.Related R (Routine.Shadows seen) activity)
    (hR : ∀ r' r, R r' r → r'.Shadows seen r) : activity'.Shadows seen activity := by
  cases h with
  | alone related => exact .alone (hR _ _ related)
  | together related judge selectors => exact .together related judge selectors
  | rest micros ended woken interrupted => exact .rest micros ended woken interrupted

section

variable {seen : τ → σ} {R : ∀ {α : Type}, Routine τ α → Routine σ α → Prop}
  {session' : Session τ} {session : Session σ} (c : Routine.Congruence seen R)
  (s : session'.Related R session)

namespace Wait

include c s

theorem related_poll (p : Plan υ) (kind : SelectorKind) (value : String) (start bound : Nat) :
    R (poll p (session'.find kind value) start bound)
      (poll p (session.find kind value) start bound) := by
  induction bound with
  | zero => exact c.world fun w => c.done _
  | succ bound ih =>
      refine c.bind (s.find kind value) fun found => c.world fun w => ?_
      simp only [show (w.map seen).clock = w.clock from rfl,
        show (w.map seen).cancelled = w.cancelled from rfl]
      cases p.verdict found (p.scale.ofMicros (w.clock - start)) w.cancelled with
      | inl located => exact c.done located
      | inr pause => exact c.pause pause ih

theorem related_element (scale : TimeScale υ) (kind : SelectorKind) (value : String)
    (limit : Number) (interval : υ) (heeds : Bool) :
    R (element scale session' kind value limit interval heeds)
      (element scale session kind value limit interval heeds) := by
  refine c.world fun w => ?_
  split
  · exact c.done _
  · cases scale.limit? limit with
    | none => exact c.done _
    | some limit => exact c.bind (related_poll c s _ kind value _ _) fun located => c.done _

theorem related_worker (scale : TimeScale υ) (kind : SelectorKind) (limit : Number) (interval : υ)
    (heeds : Bool) (selector : String) :
    R (worker scale session' kind limit interval heeds selector)
      (worker scale session kind limit interval heeds selector) := by
  refine c.world fun before => ?_
  refine c.bind (related_element c s scale kind selector limit interval heeds) fun result => ?_
  exact c.world fun after => c.done _

end Wait

namespace Handler

variable (scale : TimeScale υ) (step : Step)

include c

theorem related_concluding (word : String) {command' : Command.Routine τ Unit}
    {command : Command.Routine σ Unit} (h : R command' command) :
    R (concluding step word command') (concluding step word command) := by
  refine c.bind h fun result => ?_
  cases result <;> exact c.done _

include s

theorem related_withElement (word : String) {body' : ElementRef → Routine τ Verdict}
    {body : ElementRef → Routine σ Verdict} (h : ∀ element, R (body' element) (body element)) :
    R (withElement ⟨scale, session'⟩ step word body')
      (withElement ⟨scale, session⟩ step word body) := by
  refine c.bind (Wait.related_element c s scale _ _ _ _ _) fun result => ?_
  rcases result with e | element | reason
  · exact c.done _
  · exact h element
  · exact c.done _

theorem related_check :
    R (check ⟨scale, session'⟩ step) (check ⟨scale, session⟩ step) := by
  refine related_withElement c s scale step _ fun element => ?_
  refine c.bind (s.getText element) fun result => ?_
  split <;> exact c.done _

theorem related_selectItem (items : List ElementRef) :
    R (selectItem ⟨scale, session'⟩ step items) (selectItem ⟨scale, session⟩ step items) := by
  induction items with
  | nil => exact c.done _
  | cons item rest ih =>
      refine c.bind (s.getText item) fun result => ?_
      cases result with
      | error e => exact c.done _
      | ok text =>
          simp only
          split
          · exact related_concluding c step _ (s.click item)
          · exact ih

theorem related_select :
    R (select ⟨scale, session'⟩ step) (select ⟨scale, session⟩ step) := by
  refine related_withElement c s scale step _ fun element => ?_
  refine c.bind (s.children element "li") fun result => ?_
  cases result with
  | error e => exact c.done _
  | ok items => exact related_selectItem c s scale step items

theorem related_script :
    R (script ⟨scale, session'⟩ step) (script ⟨scale, session⟩ step) := by
  refine c.bind (s.runScript step.actionValue) fun result => ?_
  split <;> exact c.done _

theorem related_jump : R (jump ⟨scale, session'⟩ step) (jump ⟨scale, session⟩ step) := by
  refine c.bind (s.runScript step.actionValue) fun result => ?_
  split <;> exact c.done _

/-- What a step does is related, with other routines in the place of its several waits if those are
related in their own way. -/
theorem related_ofAction (action : Action) {workers' : List (Command.Routine τ Wait.Slot)}
    {S : Command.Routine τ Wait.Slot → Command.Routine σ Wait.Slot → Prop}
    (hworkers : List.Forall₂ S workers' (step.selectors.map (Wait.worker scale session
      step.selectorKind (.whole step.timeoutSeconds) scale.interval true))) :
    ((ofAction ⟨scale, session'⟩ action step).withWorkers workers').Related R S
      (ofAction ⟨scale, session⟩ action step) := by
  have hplain {r' : Routine τ Verdict} {r : Routine σ Verdict} (h : R r' r) :
      ((Activity.alone r').withWorkers workers').Related R S (.alone r) := .alone h
  have hseveral (needsAll : Bool) :
      ((several ⟨scale, session'⟩ needsAll step).withWorkers workers').Related R S
        (several ⟨scale, session⟩ needsAll step) := by
    unfold several
    simp only
    split
    · exact hplain (related_check c s scale _)
    · split
      · exact hplain (c.done _)
      · exact .together hworkers _ _
  cases action with
  | noop | invalid => exact hplain (c.done _)
  | openPage => exact hplain (related_concluding c step _ (s.navigate _))
  | fill =>
      exact hplain (related_withElement c s scale step _
        fun element => related_concluding c step _ (s.setText element _))
  | click =>
      exact hplain (related_withElement c s scale step _
        fun element => related_concluding c step _ (s.click element))
  | check => exact hplain (related_check c s scale step)
  | select => exact hplain (related_select c s scale step)
  | script => exact hplain (related_script c s scale step)
  | waitAll => exact hseveral true
  | waitAny => exact hseveral false
  | jump => exact hplain (related_jump c s scale step)
  | sleep =>
      simp only [ofAction, sleep]
      split
      · exact hplain (c.done _)
      · exact .rest _ _ _ _

end Handler

end

end BrowserSteps
