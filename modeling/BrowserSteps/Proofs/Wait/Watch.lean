import BrowserSteps.Proofs.Routine.Interference
import BrowserSteps.Proofs.Routine.Shadow
import BrowserSteps.Run.Handler
import Mathlib.Logic.Function.Basic

/-!
Waits whose queries are taken down. A watched session does what the session does, and notes each
query when its answer comes in, under the number of the wait that asked. Routines in a watched
session shadow those in the session itself, and one wait leaves the notes of the others alone, so
that what is proved of the notes of one wait holds whatever the others do in between.
-/

namespace BrowserSteps

variable {σ τ α β γ : Type}

/-- A query, when its answer came in. -/
structure Query where
  kind : SelectorKind
  value : String
  answer : Except Failure (Option ElementRef)
  clock : Nat
  /-- Whether a cancellation had been requested by then. -/
  late : Bool

/-- A shared state, and what each wait has asked so far. -/
structure Watched (σ : Type) where
  shared : σ
  asked : Nat → List Query := fun _ => []

/-- Notes a query of a wait. -/
def Watched.note (i : Nat) (q : Query) (s : Watched σ) : Watched σ :=
  { s with asked := Function.update s.asked i (s.asked i ++ [q]) }

theorem Routine.bind_done (r : Routine σ α) : r.bind .done = r := by
  induction r with
  | done value => rfl
  | act change next ih => simp only [bind, ih]
  | pause micros next ih | acquire next ih | release next ih => simp only [bind, ih]

theorem Routine.bind_assoc (r : Routine σ α) (f : α → Routine σ β) (g : β → Routine σ γ) :
    (r.bind f).bind g = r.bind fun value => (f value).bind g := by
  induction r with
  | done value => rfl
  | act change next ih => simp only [bind, ih]
  | pause micros next ih | acquire next ih | release next ih => simp only [bind, ih]

/-- The world with no query noted yet. -/
def World.watched (w : World σ) : World (Watched σ) := w.map fun s => { shared := s }

/-- A routine that notes nothing. -/
def Routine.watched : Routine σ α → Routine (Watched σ) α
  | .done value => .done value
  | .act change next =>
    .act
      (fun w =>
        let c := change (w.map Watched.shared)
        { shared := { w.shared with shared := c.shared }, cancels := c.cancels })
      fun w => (next (w.map Watched.shared)).watched
  | .pause micros next => .pause micros next.watched
  | .acquire next => .acquire next.watched
  | .release next => .release next.watched

/-- A session that notes the queries of one wait. -/
def Session.watched (session : Session σ) (i : Nat) : Session (Watched σ) where
  navigate url := (session.navigate url).watched
  find kind value :=
    (session.find kind value).watched.bind fun answer =>
      .act (fun w => { shared := w.shared.note i ⟨kind, value, answer, w.clock, w.cancelled⟩ })
        fun _ => .done answer
  children element tag := (session.children element tag).watched
  click element := (session.click element).watched
  setText element value := (session.setText element value).watched
  getText element := (session.getText element).watched
  runScript source := (session.runScript source).watched
  screenshot := session.screenshot.watched
  throttle latency download upload := (session.throttle latency download upload).watched

/-- A wait relies on its notes being left alone, and leaves those of the others alone. Nobody takes a
cancellation back. -/
def watching (i : Nat) : Routine.Terms (Watched σ) where
  rely w later :=
    later.shared.asked i = w.shared.asked i ∧ (w.cancelled = true → later.cancelled = true)
  guarantee w later :=
    (∀ j, j ≠ i → later.shared.asked j = w.shared.asked j) ∧
      (w.cancelled = true → later.cancelled = true)
  rely_refl _ := ⟨rfl, id⟩
  rely_trans first second := ⟨second.1.trans first.1, second.2 ∘ first.2⟩
  rely_passTo _ time := ⟨rfl, World.cancelled_passTo time⟩

theorem watching_agree {i j : Nat} (distinct : i ≠ j) {w later : World (Watched σ)}
    (h : (watching i).guarantee w later) : (watching j).rely w later :=
  ⟨h.1 j distinct.symm, h.2⟩

/-- What stays true of a wait while others have their turns. -/
def Stable (i : Nat) (p : World (Watched σ) → Prop) : Prop :=
  ∀ w later, (watching i).rely w later → p w → p later

/-- A routine of a watched wait: it shadows a routine that is not watched, and leads from one
condition on the world to another. -/
structure Traced (i : Nat) (pre : World (Watched σ) → Prop) (post : α → World (Watched σ) → Prop)
    (r' : Routine (Watched σ) α) (r : Routine σ α) : Prop where
  shadows : r'.Shadows Watched.shared r
  meets : ∀ w, pre w → r'.Meets (watching i) post w

namespace Traced

variable {i : Nat} {pre : World (Watched σ) → Prop} {post : α → World (Watched σ) → Prop}
  {r' : Routine (Watched σ) α} {r : Routine σ α}

theorem done {value : α} (stable : Stable i (post value)) (h : ∀ w, pre w → post value w) :
    Traced i pre post (.done value) (.done value) :=
  ⟨.done value, fun w hw later hlater => stable w later hlater (h w hw)⟩

theorem bind (h : Traced i pre post r' r) {last : β → World (Watched σ) → Prop}
    {f' : α → Routine (Watched σ) β} {f : α → Routine σ β}
    (hf : ∀ value, Traced i (post value) last (f' value) (f value)) :
    Traced i pre last (r'.bind f') (r.bind f) :=
  ⟨h.shadows.bind fun value => (hf value).shadows,
    fun w hw => (h.meets w hw).bind fun value later => (hf value).meets later⟩

theorem of_pre {stronger : World (Watched σ) → Prop} (h : Traced i pre post r' r)
    (hpre : ∀ w, stronger w → pre w) : Traced i stronger post r' r :=
  ⟨h.shadows, fun w hw => h.meets w (hpre w hw)⟩

theorem pause (stable : Stable i pre) (h : Traced i pre post r' r) (micros : Nat) :
    Traced i pre post (.pause micros r') (.pause micros r) :=
  ⟨.pause micros h.shadows, fun w hw later hlater => h.meets later (stable w later hlater hw)⟩

/-- What is read from the world can be used in what comes next. -/
theorem world {f' : World (Watched σ) → Routine (Watched σ) α} {f : World σ → Routine σ α}
    (hf : ∀ w, Traced i (fun now => now = w ∧ pre now) post (f' w) (f (w.map Watched.shared))) :
    Traced i pre post (Routine.world.bind f') (Routine.world.bind f) := by
  refine ⟨.world fun w => (hf w).shadows, fun w hw => ⟨⟨fun _ _ => rfl, ?_⟩, ?_⟩⟩
  · exact World.cancelled_apply _
  · exact (hf w).meets _ ⟨rfl, hw⟩

/-- A routine that notes nothing keeps what is stable. -/
theorem watched {keeps : World (Watched σ) → Prop} (stable : Stable i keeps) (r : Routine σ α) :
    Traced i keeps (fun _ => keeps) r.watched r := by
  constructor
  · induction r with
    | done value => exact .done value
    | act change next ih => exact .act (fun _ => rfl) fun w => ih _
    | pause micros next ih => exact .pause micros ih
    | acquire next ih => exact .acquire ih
    | release next ih => exact .release ih
  · intro w hw
    induction r generalizing w with
    | done value => exact fun later hlater => stable w later hlater hw
    | act change next ih =>
        refine ⟨⟨fun _ _ => rfl, World.cancelled_apply _⟩, ih _ _ ?_⟩
        exact stable w _ ⟨rfl, World.cancelled_apply _⟩ hw
    | pause micros next ih => exact fun later hlater => ih later (stable w later hlater hw)
    | acquire next ih => exact fun later hlater => ih later (stable w later hlater hw)
    | release next ih => exact ih w hw

/-- A query is noted when its answer comes in, and what is next begins at that instant. -/
theorem find_bind (session : Session σ) (kind : SelectorKind) (value : String)
    (after : Except Failure (Option ElementRef) → World (Watched σ) → Prop) (stable : Stable i pre)
    (noted : ∀ answer w, pre w → after answer (w.apply
      { shared := w.shared.note i ⟨kind, value, answer, w.clock, w.cancelled⟩ }))
    {f' : Except Failure (Option ElementRef) → Routine (Watched σ) α}
    {f : Except Failure (Option ElementRef) → Routine σ α}
    (onward : ∀ answer, Traced i (after answer) post (f' answer) (f answer)) :
    Traced i pre post (((session.watched i).find kind value).bind f')
      ((session.find kind value).bind f) := by
  simp only [Session.watched, Routine.bind_assoc]
  apply (watched stable (session.find kind value)).bind
  intro answer
  constructor
  · exact .note (fun _ => rfl) fun _ => (onward answer).shadows
  · intro w before
    constructor
    · exact ⟨fun j distinct => Function.update_of_ne distinct _ _, World.cancelled_apply _⟩
    · exact (onward answer).meets _ (noted answer w before)

/-- A query on its own leaves what is stable of its answer. -/
theorem find (session : Session σ) (kind : SelectorKind) (value : String)
    {after : Except Failure (Option ElementRef) → World (Watched σ) → Prop}
    (stable : Stable i pre) (stable_after : ∀ answer, Stable i (after answer))
    (noted : ∀ answer w, pre w → after answer (w.apply
      { shared := w.shared.note i ⟨kind, value, answer, w.clock, w.cancelled⟩ })) :
    Traced i pre after ((session.watched i).find kind value) (session.find kind value) := by
  rw [← ((session.watched i).find kind value).bind_done, ← (session.find kind value).bind_done]
  apply find_bind session kind value after stable noted
  intro answer
  exact .done (stable_after answer) fun _ => id

end Traced

end BrowserSteps
