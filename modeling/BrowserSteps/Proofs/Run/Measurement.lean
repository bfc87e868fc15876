import BrowserSteps.Proofs.Run.ControlFlow
import BrowserSteps.Proofs.Run.Phases
import Mathlib.Data.List.Induction

/-!
The measurements of a run. What a run has measured is a replay of its executions: a start marker
replaces the pending start, and the finish marker of a step that does not stop the run uses it up.
The replay is read off the history from its last execution backwards, so that a slot holds the
sample of the last finish marker for it that found a start pending.
-/

namespace BrowserSteps.Run

variable {σ : Type}

namespace Execution

/-- The time before the step began. -/
def startedAt (env : Env σ) (e : Execution σ) : DateTime := e.start.now env

/-- The time after the activity of the step, at which its finish marker is processed. -/
def markedAt (env : Env σ) (e : Execution σ) : DateTime :=
  env.base.add (e.activityEnd env).2.clock

/-- Whether the step has a start marker. -/
def opens (e : Execution σ) : Bool := e.step.marker = .start

/-- Whether the step has a finish marker and came to a verdict that does not stop the run. -/
def closes (env : Env σ) (e : Execution σ) : Bool :=
  match (e.activityEnd env).1 with
  | .verdict v => e.step.marker = .finish ∧ v.stop = false
  | .cut _ | .unfinished => false

theorem opens_eq_false {env : Env σ} {e : Execution σ} (h : e.closes env) : e.opens = false := by
  unfold closes at h
  split at h
  · simp only [decide_eq_true_eq] at h
    simp [opens, h.1]
  · cases h
  · cases h

end Execution

/-- What has been measured: the start that is pending, and the sample of each slot. -/
structure Tally where
  pending : Option DateTime := none
  sample : Int → Option Sample := fun _ => none

def State.tally (s : State σ) : Tally := ⟨s.pending, s.result.sample?⟩

/-- What has been measured after a finish marker for a slot. -/
def Tally.settled (m : Tally) (slot : Int) (now : DateTime) : Tally where
  sample other :=
    match m.pending with
    | some start =>
      if other = slot ∧ slot ∈ measureSlots then some (Measure.sample start now)
      else m.sample other
    | none => m.sample other

/-- What has been measured after one more execution. -/
def Tally.after (env : Env σ) (m : Tally) (e : Execution σ) : Tally :=
  if e.opens then { m with pending := some (e.startedAt env) }
  else if e.closes env then m.settled e.step.measureSlot (e.markedAt env)
  else m

/-- What has been measured after executions, from nothing on. -/
def Tally.replay (env : Env σ) (es : List (Execution σ)) : Tally := es.foldl (Tally.after env) {}

/-- The finish marker at `j` comes after a start marker, with no other finish marker between
them, and is for a slot. -/
def MeasuresAt (env : Env σ) (es : List (Execution σ)) (slot : Int) (j : Nat) : Prop :=
  ∃ e, es[j]? = some e ∧ e.closes env ∧ e.step.measureSlot = slot ∧
    ∃ i d, i < j ∧ es[i]? = some d ∧ d.opens ∧
      ∀ m x, i < m → m < j → es[m]? = some x → x.closes env = false

/-- The start marker at `i` is the latest before `j`. -/
def LatestStart (es : List (Execution σ)) (i j : Nat) : Prop :=
  i < j ∧ (∃ d, es[i]? = some d ∧ d.opens) ∧
    ∀ m x, i < m → m < j → es[m]? = some x → x.opens = false

section

variable {env : Env σ} {capturing : Bool} {steps : List Step}

theorem Finished.tally {step : Step} {stop : Bool} {s : State σ} {answer : Bool × State σ}
    (h : Finished env step stop s answer) :
    answer.2.tally = if step.marker = .finish ∧ stop = false then
      s.tally.settled step.measureSlot (s.now env) else s.tally := by
  cases h with
  | ignored h => rw [if_neg h]
  | @measured start h pending slot =>
      rw [if_pos h]
      simp only [State.tally, Tally.settled, pending, slot, and_true, Tally.mk.injEq, true_and]
      funext other
      by_cases hother : other = step.measureSlot
      · simp only [hother, RunResult.sample?_putSample_self, if_true]
      · simp only [hother, RunResult.sample?_putSample_of_ne _ _ hother, if_false]
  | @refused fault h unusable =>
      rw [if_pos h]
      simp only [State.tally, Tally.settled, State.note, Tally.mk.injEq, true_and]
      funext other
      rcases unusable with hpending | hslot
      · simp only [hpending]
        rfl
      · simp only [hslot, and_false, if_false]
        split <;> rfl

theorem Captured.tally {step : Step} {s : State σ} {answer : Part Bool × State σ}
    (h : Captured env capturing step s answer) : answer.2.tally = s.tally := by
  cases h <;> rfl

theorem tally_noted (e : Execution σ) (entries : List String) (world : World σ) :
    (e.noted env entries world).tally =
      { e.start.tally with
        pending := if e.opens then some (e.startedAt env) else e.start.pending } := by
  simp only [Execution.noted, noteAll_eq, markStart_eq, State.tally, Execution.opens,
    Execution.startedAt, decide_eq_true_eq]
  rfl

/-- A finish marker measures from the pending start to the time after the activity. -/
theorem tally_measured (e : Execution σ) {v : Verdict} {world : World σ}
    (answered : e.activityEnd env = (.verdict v, world)) :
    (e.measured env v world).2.tally = e.start.tally.after env e := by
  have hnoted : (e.noted env v.entries world).tally = _ := tally_noted e v.entries world
  have hnow : (e.noted env v.entries world).now env = e.markedAt env := by
    simp only [Execution.noted, noteAll_eq, State.now, Execution.markedAt, answered]
  have hcloses : e.closes env = decide (e.step.marker = .finish ∧ v.stop = false) := by
    simp only [Execution.closes, answered]
  have hfinished := (e.finished env v world).tally
  rw [hnoted, hnow] at hfinished
  rw [hfinished, Tally.after, hcloses]
  cases hopens : e.opens with
  | true =>
      have hstart : e.step.marker = .start := by simpa [Execution.opens] using hopens
      simp [hstart]
  | false => simp [State.tally]

/-- Unless the bound on turns leaves it unfinished, an execution measures as the replay does. -/
theorem Executes.tally {e : Execution σ} {ending : StepEnd} {t : State σ}
    (h : Executes env capturing e ending t) (complete : ending ≠ .unfinished) :
    t.tally = e.start.tally.after env e := by
  have hcaptured {v : Verdict} {world : World σ} {part : Part Bool} {s : State σ}
      (answered : e.activityEnd env = (.verdict v, world))
      (captured : markCapture env capturing e.step (e.measured env v world).2 = (part, s)) :
      s.tally = e.start.tally.after env e := by
    have hsame := (captured_of_eq captured).tally
    rw [tally_measured e answered] at hsame
    exact hsame
  cases h with
  | ended v world unsaved s answered captured _ state_eq =>
      rw [← hcaptured answered captured, state_eq]
      rfl
  | cutInCapture v world answered captured => exact hcaptured answered captured
  | cutInActivity entries world answered _ state_eq =>
      have hcloses : e.closes env = false := by simp only [Execution.closes, answered]
      rw [state_eq, tally_noted, Tally.after, hcloses]
      cases e.opens <;> rfl
  | unfinished _ _ ending_eq => exact absurd ending_eq complete

/-- The samples after a course are those of the replay. -/
theorem Course.samples {s u : State σ} {es : List (Execution σ)} {reason : End}
    (h : Course env capturing steps s es reason u) :
    u.result.sample? = (es.foldl (Tally.after env) s.tally).sample := by
  induction h with
  | finished | bounded | cancelled => rfl
  | next start _ _ executed _ ih =>
      subst start
      rw [List.foldl_cons, ← (Executes.of_executed executed).tally (by simp)]
      exact ih
  | stopped start _ _ executed | cut start _ _ executed =>
      subst start
      rw [List.foldl_cons, ← (Executes.of_executed executed).tally (by simp)]
      rfl
  | waiting start _ executed =>
      subst start
      rw [(Executes.of_executed executed).result_of_unfinished]
      rfl

theorem getElem?_concat_eq_some {α : Type} {as : List α} {a b : α} {k : Nat} :
    (as ++ [a])[k]? = some b ↔ as[k]? = some b ∨ k = as.length ∧ b = a := by
  rcases Nat.lt_trichotomy k as.length with inside | rfl | outside
  · rw [List.getElem?_append_left inside]
    simp [Nat.ne_of_lt inside]
  · rw [List.getElem?_concat_length, List.getElem?_eq_none (Nat.le_refl _)]
    simp [eq_comm]
  · rw [List.getElem?_eq_none (by simp; omega), List.getElem?_eq_none (by omega)]
    simp [Nat.ne_of_gt outside]

theorem getElem?_concat_of_some {α : Type} {as : List α} {b : α} {k : Nat}
    (h : as[k]? = some b) (a : α) : (as ++ [a])[k]? = some b :=
  getElem?_concat_eq_some.mpr (.inl h)

theorem lt_length_of_getElem? {α : Type} {as : List α} {a : α} {k : Nat}
    (h : as[k]? = some a) : k < as.length :=
  (List.getElem?_eq_some_iff.mp h).1

theorem le_length_of_concat {α : Type} {as : List α} {a b : α} {k : Nat}
    (h : (as ++ [a])[k]? = some b) : k ≤ as.length := by
  have inside := lt_length_of_getElem? h
  simp only [List.length_append, List.length_singleton] at inside
  omega

/-- No start is pending if every start marker has been followed by a finish marker; otherwise it
is that of the latest start marker, which neither kind has followed. -/
inductive Pending (env : Env σ) (es : List (Execution σ)) : Option DateTime → Prop where
  | used (h : ∀ (i : Nat) (d : Execution σ), es[i]? = some d → d.opens →
        ∃ (m : Nat) (x : Execution σ), i < m ∧ es[m]? = some x ∧ x.closes env) :
      Pending env es none
  | started (i : Nat) (d : Execution σ) (at_i : es[i]? = some d) (opens : d.opens)
      (untouched : ∀ (m : Nat) (x : Execution σ), i < m → es[m]? = some x →
        x.opens = false ∧ x.closes env = false) :
      Pending env es (some (d.startedAt env))

theorem pending_concat_of_opens (es : List (Execution σ)) {e : Execution σ} (opens : e.opens) :
    Pending env (es ++ [e]) (some (e.startedAt env)) := by
  refine .started es.length e List.getElem?_concat_length opens ?_
  intro m x later at_m
  have inside := le_length_of_concat at_m
  omega

theorem pending_concat_of_closes (es : List (Execution σ)) {e : Execution σ}
    (closes : e.closes env) : Pending env (es ++ [e]) none := by
  refine .used ?_
  intro i d at_i opens
  rcases getElem?_concat_eq_some.mp at_i with old | ⟨_, rfl⟩
  · exact ⟨es.length, e, lt_length_of_getElem? old, List.getElem?_concat_length, closes⟩
  · simp [Execution.opens_eq_false closes] at opens

theorem Pending.concat {es : List (Execution σ)} {pending : Option DateTime} {e : Execution σ}
    (h : Pending env es pending) (opens : e.opens = false) (closes : e.closes env = false) :
    Pending env (es ++ [e]) pending := by
  cases h with
  | used h =>
      refine .used ?_
      intro i d at_i opens_d
      rcases getElem?_concat_eq_some.mp at_i with old | ⟨_, rfl⟩
      · obtain ⟨m, x, later, at_m, used⟩ := h i d old opens_d
        exact ⟨m, x, later, getElem?_concat_of_some at_m e, used⟩
      · simp [opens] at opens_d
  | started i d at_i opens_d untouched =>
      refine .started i d (getElem?_concat_of_some at_i e) opens_d ?_
      intro m x later at_m
      rcases getElem?_concat_eq_some.mp at_m with old | ⟨_, rfl⟩
      · exact untouched m x later old
      · exact ⟨opens, closes⟩

theorem replay_concat (es : List (Execution σ)) (e : Execution σ) :
    Tally.replay env (es ++ [e]) = (Tally.replay env es).after env e := by
  simp only [Tally.replay, List.foldl_append, List.foldl_cons, List.foldl_nil]

theorem pending_replay (es : List (Execution σ)) :
    Pending env es (Tally.replay env es).pending := by
  induction es using List.reverseRecOn with
  | nil => exact .used (fun _ _ impossible => (by cases impossible))
  | append_singleton es e ih =>
      rw [replay_concat, Tally.after]
      cases hopens : e.opens with
      | true => exact pending_concat_of_opens es hopens
      | false =>
          cases hcloses : e.closes env with
          | true => exact pending_concat_of_closes es hcloses
          | false => exact ih.concat hopens hcloses

/-- One more execution measures for a slot if it has a finish marker for it and a start is
pending. -/
theorem measuresAt_concat (es : List (Execution σ)) (e : Execution σ) (slot : Int) (j : Nat) :
    MeasuresAt env (es ++ [e]) slot j ↔ MeasuresAt env es slot j ∨
      j = es.length ∧ e.closes env ∧ e.step.measureSlot = slot ∧
        (Tally.replay env es).pending ≠ none := by
  constructor
  · rintro ⟨x, at_j, closes, rfl, i, d, before, at_i, opens, between⟩
    have inside := le_length_of_concat at_j
    have at_i' : es[i]? = some d := by
      rcases getElem?_concat_eq_some.mp at_i with old | ⟨rfl, _⟩
      · exact old
      · omega
    have between' : ∀ m x, i < m → m < j → es[m]? = some x → x.closes env = false :=
      fun m x later earlier at_m => between m x later earlier (getElem?_concat_of_some at_m e)
    rcases getElem?_concat_eq_some.mp at_j with old | ⟨rfl, rfl⟩
    · exact .inl ⟨x, old, closes, rfl, i, d, before, at_i', opens, between'⟩
    · refine .inr ⟨rfl, closes, rfl, ?_⟩
      intro impossible
      have hpending : Pending env es none := impossible ▸ pending_replay es
      cases hpending with
      | used h =>
          obtain ⟨m, y, later, at_m, used⟩ := h i d at_i' opens
          simp [between' m y later (lt_length_of_getElem? at_m) at_m] at used
  · rintro (⟨x, at_j, closes, rfl, i, d, before, at_i, opens, between⟩ | ⟨rfl, closes, rfl, hopen⟩)
    · refine ⟨x, getElem?_concat_of_some at_j e, closes, rfl, i, d, before,
        getElem?_concat_of_some at_i e, opens, ?_⟩
      intro m y later earlier at_m
      rcases getElem?_concat_eq_some.mp at_m with old | ⟨rfl, _⟩
      · exact between m y later earlier old
      · have inside := lt_length_of_getElem? at_j
        omega
    · obtain ⟨time, hpending⟩ := Option.ne_none_iff_exists'.mp hopen
      have hlatest : Pending env es (some time) := hpending ▸ pending_replay es
      cases hlatest with
      | started i d at_i opens untouched =>
          refine ⟨e, List.getElem?_concat_length, closes, rfl, i, d, lt_length_of_getElem? at_i,
            getElem?_concat_of_some at_i e, opens, ?_⟩
          intro m y later earlier at_m
          rcases getElem?_concat_eq_some.mp at_m with old | ⟨rfl, _⟩
          · exact (untouched m y later old).2
          · omega

theorem Tally.sample_after_of_ne {m : Tally} {e : Execution σ} {slot : Int}
    (h : ¬ (e.closes env ∧ e.step.measureSlot = slot ∧ slot ∈ measureSlots ∧ m.pending ≠ none)) :
    (m.after env e).sample slot = m.sample slot := by
  unfold Tally.after
  cases hopens : e.opens with
  | true => rfl
  | false =>
      cases hcloses : e.closes env with
      | false => rfl
      | true =>
          simp only [Bool.false_eq_true, if_false, if_true, Tally.settled]
          cases hpending : m.pending with
          | none => rfl
          | some start =>
              refine if_neg ?_
              rintro ⟨rfl, hslot⟩
              exact h ⟨hcloses, rfl, hslot, by simp [hpending]⟩

theorem Tally.sample_after_of_closes {m : Tally} {e : Execution σ} {start : DateTime}
    (closes : e.closes env) (pending : m.pending = some start)
    (slot : e.step.measureSlot ∈ measureSlots) :
    (m.after env e).sample e.step.measureSlot = some (Measure.sample start (e.markedAt env)) := by
  simp only [Tally.after, Execution.opens_eq_false closes, closes, Bool.false_eq_true, if_false,
    if_true, Tally.settled, pending, slot, and_self]

/-- A slot has no sample if nothing measured for it; otherwise it has the sample of the last
finish marker that did, taken from the latest start marker before that. -/
inductive Sampled (env : Env σ) (es : List (Execution σ)) (slot : Int) : Option Sample → Prop where
  | missing (h : ∀ j, ¬ MeasuresAt env es slot j) : Sampled env es slot none
  | found (i j : Nat) (d e : Execution σ) (at_i : es[i]? = some d) (at_j : es[j]? = some e)
      (latest : LatestStart es i j) (measures : MeasuresAt env es slot j)
      (last : ∀ later, MeasuresAt env es slot later → later ≤ j) :
      Sampled env es slot (some (Measure.sample (d.startedAt env) (e.markedAt env)))

theorem sampled_replay {slot : Int} (h : slot ∈ measureSlots) (es : List (Execution σ)) :
    Sampled env es slot ((Tally.replay env es).sample slot) := by
  induction es using List.reverseRecOn with
  | nil => exact .missing (fun _ ⟨_, impossible, _⟩ => (by cases impossible))
  | append_singleton es e ih =>
      rw [replay_concat]
      by_cases hnew : e.closes env ∧ e.step.measureSlot = slot ∧ (Tally.replay env es).pending ≠ none
      · -- the new execution measures for the slot, from the start that is pending
        obtain ⟨closes, rfl, hopen⟩ := hnew
        obtain ⟨time, hpending⟩ := Option.ne_none_iff_exists'.mp hopen
        rw [Tally.sample_after_of_closes closes hpending h]
        have hlatest : Pending env es (some time) := hpending ▸ pending_replay es
        cases hlatest with
        | started i d at_i opens untouched =>
            refine .found i es.length d e (getElem?_concat_of_some at_i e)
              List.getElem?_concat_length
              ⟨lt_length_of_getElem? at_i, ⟨d, getElem?_concat_of_some at_i e, opens⟩, ?_⟩
              ((measuresAt_concat es e _ _).mpr (.inr ⟨rfl, closes, rfl, hopen⟩))
              (fun later ⟨_, at_later, _⟩ => le_length_of_concat at_later)
            intro m x later earlier at_m
            rcases getElem?_concat_eq_some.mp at_m with old | ⟨rfl, _⟩
            · exact (untouched m x later old).1
            · omega
      · -- it does not, so the last one that does is still the last
        rw [Tally.sample_after_of_ne (fun h => hnew ⟨h.1, h.2.1, h.2.2.2⟩)]
        have hsame : ∀ j, MeasuresAt env (es ++ [e]) slot j ↔ MeasuresAt env es slot j := by
          intro j
          rw [measuresAt_concat]
          exact or_iff_left (fun new => hnew new.2)
        generalize (Tally.replay env es).sample slot = sample at ih ⊢
        cases ih with
        | missing h => exact .missing (fun j measures => h j ((hsame j).mp measures))
        | found i j d x at_i at_j latest measures last =>
            obtain ⟨before, ⟨d', at_d', opens⟩, between⟩ := latest
            refine .found i j d x (getElem?_concat_of_some at_i e) (getElem?_concat_of_some at_j e)
              ⟨before, ⟨d', getElem?_concat_of_some at_d' e, opens⟩, ?_⟩
              ((hsame j).mpr measures) (fun later h => last later ((hsame later).mp h))
            intro m y later earlier at_m
            rcases getElem?_concat_eq_some.mp at_m with old | ⟨rfl, _⟩
            · exact between m y later earlier old
            · have inside := lt_length_of_getElem? at_j
              omega

theorem replay_of_unknown {slot : Int} (h : slot ∉ measureSlots) (es : List (Execution σ)) :
    (Tally.replay env es).sample slot = none := by
  induction es using List.reverseRecOn with
  | nil => rfl
  | append_singleton es e ih =>
      rw [replay_concat, Tally.sample_after_of_ne (fun known => h known.2.2.1), ih]

/-- The activity of an execution ends between the execution's start and its end. -/
theorem Executes.activity_between {e : Execution σ} {ending : StepEnd} {t : State σ}
    (h : Executes env capturing e ending t) (timely : e.start.world.Timely) :
    e.start.world.clock ≤ (e.activityEnd env).2.clock ∧
      (e.activityEnd env).2.clock ≤ t.world.clock := by
  have hbefore := (activity env e.step).before_run env.turns timely
  change e.start.world.Before (e.activityEnd env).2 at hbefore
  have hnoted (entries : List String) :
      (e.noted env entries (e.activityEnd env).2).world = (e.activityEnd env).2 := by
    simp only [Execution.noted, noteAll_eq, markStart_eq]
  refine ⟨hbefore.clock, ?_⟩
  have hmarked {v : Verdict} {world : World σ} {part : Part Bool} {s : State σ}
      (answered : e.activityEnd env = (.verdict v, world))
      (captured : markCapture env capturing e.step (e.measured env v world).2 = (part, s)) :
      (e.activityEnd env).2.clock ≤ s.world.clock := by
    have hfollows := (follows_marked captured).world
    have hsame := hnoted v.entries
    rw [answered] at hsame hbefore ⊢
    rw [hsame] at hfollows
    exact (hfollows hbefore.timely).clock
  cases h with
  | ended v world unsaved s answered captured _ state_eq =>
      have hended := hmarked answered captured
      rwa [state_eq]
  | cutInCapture v world answered captured => exact hmarked answered captured
  | cutInActivity entries world answered _ state_eq =>
      have hsame := hnoted entries
      rw [answered] at hsame ⊢
      exact Nat.le_of_eq (by rw [state_eq, hsame])
  | unfinished world answered _ state_eq => exact Nat.le_of_eq (by rw [answered, state_eq])

/-- The activities of a course end one after the other, each before the next execution begins. -/
theorem Course.timeline {s u : State σ} {es : List (Execution σ)} {reason : End}
    (h : Course env capturing steps s es reason u) (timely : s.world.Timely) :
    es.Pairwise (fun d e => (d.activityEnd env).2.clock ≤ e.start.world.clock) ∧
      ∀ e ∈ es, s.world.clock ≤ e.start.world.clock ∧
        e.start.world.clock ≤ (e.activityEnd env).2.clock ∧
        (e.activityEnd env).2.clock ≤ u.world.clock := by
  induction h with
  | finished | cancelled | waiting | bounded => simp
  | @next s t u e rest reason jump start here running executed onward ih =>
      subst start
      have executes := Executes.of_executed executed
      have hbefore := executes.follows.world timely
      obtain ⟨hactivity, hended⟩ := executes.activity_between timely
      obtain ⟨hpairs, hrest⟩ := ih hbefore.timely
      have honward := (onward.grows.world hbefore.timely).clock
      simp only [advance] at hrest honward
      refine ⟨List.pairwise_cons.mpr ⟨?_, hpairs⟩, List.forall_mem_cons.mpr ⟨?_, ?_⟩⟩
      · intro later member
        have hlater := hrest later member
        omega
      · omega
      · intro later member
        have hlater := hrest later member
        have hclock := hbefore.clock
        omega
  | stopped start here running executed | cut start here running executed =>
      subst start
      obtain ⟨hactivity, hended⟩ := (Executes.of_executed executed).activity_between timely
      refine ⟨List.pairwise_singleton _ _, List.forall_mem_singleton.mpr ?_⟩
      omega

theorem Course.clock_between {s u : State σ} {es : List (Execution σ)} {reason : End}
    (h : Course env capturing steps s es reason u) (timely : s.world.Timely) {i j : Nat}
    {d e : Execution σ} (at_i : es[i]? = some d) (at_j : es[j]? = some e) (before : i < j) :
    s.world.clock ≤ d.start.world.clock ∧
      d.start.world.clock ≤ (e.activityEnd env).2.clock ∧
      (e.activityEnd env).2.clock ≤ u.world.clock := by
  obtain ⟨hpairs, hinside⟩ := h.timeline timely
  obtain ⟨hi, rfl⟩ := List.getElem?_eq_some_iff.mp at_i
  obtain ⟨hj, rfl⟩ := List.getElem?_eq_some_iff.mp at_j
  have hpair := List.pairwise_iff_getElem.mp hpairs i j hi hj before
  have hfirst := hinside _ (List.getElem_mem hi)
  have hsecond := hinside _ (List.getElem_mem hj)
  omega

end

/-- The samples of a run are those of the replay of its history. -/
theorem run_sample (env : Env σ) (steps : List Step) (order : Order) (bound : Nat)
    (world : World σ) (files : FileTree) :
    (run env steps order bound world files).2.result.sample? =
      (Tally.replay env (history env steps order bound world files)).sample := by
  obtain ⟨u, hcourse, hended⟩ := run_course env steps order bound world files
  obtain ⟨log, outcomes, hclosing⟩ := closing_eq env steps
    (run env steps order bound world files).1 u
  have hfresh := opening_fresh env order world files
  have hsamples := hcourse.samples
  have hnothing : (opening env order world files).tally = {} := by
    simp only [State.tally, hfresh.pending, Tally.mk.injEq, true_and]
    funext slot
    simp only [RunResult.sample?, hfresh.samples, List.lookup_nil]
  rw [hnothing] at hsamples
  rw [hended, hclosing]
  exact hsamples

theorem since_add (base : DateTime) (start finish : Int) :
    (base.add finish).since (base.add start) = finish - start := by
  simp only [DateTime.since, DateTime.add]
  omega

/-- From the start of a step to the finish marker of a later one no negative time passes, and no
more than the run takes. -/
theorem run_lasts (env : Env σ) (steps : List Step) (order : Order) (bound : Nat)
    (world : World σ) (files : FileTree) {i j : Nat} {d e : Execution σ}
    (at_i : (history env steps order bound world files)[i]? = some d)
    (at_j : (history env steps order bound world files)[j]? = some e) (before : i < j) :
    0 ≤ (e.markedAt env).since (d.startedAt env) ∧
      ∃ started finished,
        (run env steps order bound world files).2.result.startedAt = some started ∧
        (run env steps order bound world files).2.result.finishedAt = some finished ∧
        (e.markedAt env).since (d.startedAt env) ≤ finished.since started := by
  obtain ⟨u, hcourse, hended⟩ := run_course env steps order bound world files
  obtain ⟨log, outcomes, hclosing⟩ := closing_eq env steps
    (run env steps order bound world files).1 u
  have hfresh := opening_fresh env order world files
  have hopening := hfresh.clock
  have hclocks := hcourse.clock_between hfresh.timely at_i at_j before
  have hstarted := hcourse.grows.startedAt.trans hfresh.startedAt
  rw [hended, hclosing, Execution.markedAt, Execution.startedAt, State.now, since_add]
  refine ⟨by omega, _, _, hstarted, rfl, ?_⟩
  rw [State.now, since_add]
  omega

theorem millisBetween_bounds (start finish : DateTime) :
    Measure.millisBetween start finish * 1000 ≤ finish.since start ∧
      finish.since start < (Measure.millisBetween start finish + 1) * 1000 := by
  have hfloor : Measure.millisBetween start finish = finish.since start / 1000 :=
    Int.fdiv_eq_ediv_of_nonneg _ (by decide)
  omega

/-- The samples of every run. Only the slots that there are ever hold one. A slot holds one if and
only if some finish marker measured for it, and then it holds that of the last one that did: its
time is when that marker was processed, its duration is counted from before the step with the
latest start marker, in whole milliseconds, rounded down. No duration is negative or longer than
the run. The executions are those of a run that ends, if its activities are orderly, and ends for a
reason that they bear out. -/
theorem run_samples (env : Env σ) (steps : List Step) (order : Order) (bound : Nat)
    (world : World σ) (files : FileTree) :
    let es := history env steps order bound world files
    let ended := run env steps order bound world files
    let r := ended.2.result
    (∀ slot, slot ∉ measureSlots → r.sample? slot = none) ∧
    (∀ slot ∈ measureSlots,
      ((r.sample? slot).isSome ↔ ∃ j, MeasuresAt env es slot j) ∧
      ∀ j, MeasuresAt env es slot j → (∀ later, MeasuresAt env es slot later → later ≤ j) →
        ∃ i d e, es[i]? = some d ∧ es[j]? = some e ∧ LatestStart es i j ∧
          ∃ millis : Int,
            r.sample? slot = some ⟨e.markedAt env, .real (secondsOfMillis millis)⟩ ∧
            millis * 1000 ≤ (e.markedAt env).since (d.startedAt env) ∧
            (e.markedAt env).since (d.startedAt env) < (millis + 1) * 1000 ∧
            0 ≤ millis ∧
            ∃ started finished, r.startedAt = some started ∧ r.finishedAt = some finished ∧
              millis * 1000 ≤ finished.since started) ∧
    BearsOut env order.capturing steps (opening env order world files).world.deadline es
      ended.2 ended.1 ∧
    ((∀ step ∈ steps, (activity env step).Orderly) →
      Completes env steps order bound world files) := by
  intro es ended r
  have hsample : r.sample? = (Tally.replay env es).sample :=
    run_sample env steps order bound world files
  refine ⟨fun slot hslot => by rw [hsample, replay_of_unknown hslot], ?_,
    run_bearsOut env steps order bound world files,
    fun orderly => run_completes env orderly order bound world files⟩
  intro slot hslot
  have hsampled : Sampled env es slot (r.sample? slot) := hsample ▸ sampled_replay hslot es
  cases hfound : r.sample? slot with
  | none =>
      rw [hfound] at hsampled
      cases hsampled with
      | missing hnone =>
          exact ⟨by simp [hnone], fun j measures => absurd measures (hnone j)⟩
  | some sample =>
      rw [hfound] at hsampled
      cases hsampled with
      | found i j d e at_i at_j latest measures last =>
          refine ⟨by simpa using ⟨j, measures⟩, ?_⟩
          intro k measures_k last_k
          obtain rfl : k = j := Nat.le_antisymm (last k measures_k) (last_k j measures)
          obtain ⟨hlow, hhigh⟩ := millisBetween_bounds (d.startedAt env) (e.markedAt env)
          obtain ⟨hpositive, started, finished, hstarted, hfinished, hwhole⟩ :=
            run_lasts env steps order bound world files at_i at_j latest.1
          refine ⟨i, d, e, at_i, at_j, latest, _, rfl, hlow, hhigh, ?_, started, finished,
            hstarted, hfinished, ?_⟩
          · omega
          · omega

end BrowserSteps.Run
