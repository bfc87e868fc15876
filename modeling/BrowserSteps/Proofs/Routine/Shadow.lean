import BrowserSteps.Proofs.Routine.Turns
import Mathlib.Data.List.Forall2
import BrowserSteps.Run.Activity

/-!
Routines that take notes. A shared state with notes in it is seen as one without by a function. A
routine shadows another if, seen that way, it does what the other does, and all that it does besides
cannot be seen. Alone or among others, in turns of the same order, the two come to the same end.
-/

namespace BrowserSteps

variable {σ τ α β : Type}

/-- The world with its shared state seen through a function. -/
def World.map (seen : τ → σ) (w : World τ) : World σ := { w with shared := seen w.shared }

theorem World.map_wait (seen : τ → σ) (w : World τ) (time : Nat) :
    (w.map seen).wait time = ((w.wait time).1, (w.wait time).2.map seen) := by
  unfold wait
  rw [show (w.map seen).cutBy? time = w.cutBy? time from rfl]
  cases w.cutBy? time <;> rfl

/-- What two answers are made into keeps them related. -/
theorem rel_map {A A' B B' : Type} {R : A' → A → Prop} {S : B' → B → Prop} {f' : A' → B'}
    {f : A → B} (hf : ∀ a' a, R a' a → S (f' a') (f a)) {o' : Option A'} {o : Option A}
    (h : Option.Rel R o' o) : Option.Rel S (o'.map f') (o.map f) := by
  cases h with
  | some related => exact .some (hf _ _ related)
  | none => exact .none

namespace Routine

/-- The first routine does what the second does, as far as it can be seen. -/
inductive Shadows (seen : τ → σ) : Routine τ α → Routine σ α → Prop where
  | done (value : α) : Shadows seen (.done value) (.done value)
  | act {change' : World τ → Change τ} {change : World σ → Change σ}
      {next' : World τ → Routine τ α} {next : World σ → Routine σ α}
      (same : ∀ w : World τ, (w.apply (change' w)).map seen = (w.map seen).apply (change (w.map seen)))
      (onward : ∀ w, Shadows seen (next' w) (next (w.map seen))) :
      Shadows seen (.act change' next') (.act change next)
  | note {change : World τ → Change τ} {next : World τ → Routine τ α} {r : Routine σ α}
      (unseen : ∀ w : World τ, (w.apply (change w)).map seen = w.map seen)
      (onward : ∀ w, Shadows seen (next w) r) : Shadows seen (.act change next) r
  | pause {next' : Routine τ α} {next : Routine σ α} (micros : Nat)
      (onward : Shadows seen next' next) : Shadows seen (.pause micros next') (.pause micros next)
  | acquire {next' : Routine τ α} {next : Routine σ α} (onward : Shadows seen next' next) :
      Shadows seen (.acquire next') (.acquire next)
  | release {next' : Routine τ α} {next : Routine σ α} (onward : Shadows seen next' next) :
      Shadows seen (.release next') (.release next)

section

variable {seen : τ → σ}

theorem Shadows.bind {r' : Routine τ α} {r : Routine σ α} (h : r'.Shadows seen r)
    {f' : α → Routine τ β} {f : α → Routine σ β} (hf : ∀ value, (f' value).Shadows seen (f value)) :
    (r'.bind f').Shadows seen (r.bind f) := by
  induction h with
  | done value => exact hf value
  | act same _ ih => exact .act same ih
  | note unseen _ ih => exact .note unseen ih
  | pause micros _ ih => exact .pause micros ih
  | acquire _ ih => exact .acquire ih
  | release _ ih => exact .release ih

theorem Shadows.world {f' : World τ → Routine τ β} {f : World σ → Routine σ β}
    (hf : ∀ w, (f' w).Shadows seen (f (w.map seen))) :
    (Routine.world.bind f').Shadows seen (Routine.world.bind f) :=
  .act (fun _ => rfl) hf

/-- Two routines, one of which shadows the other, run alone to the same end. -/
theorem Shadows.runAlone_eq {r' : Routine τ α} {r : Routine σ α} (h : r'.Shadows seen r)
    (w : World τ) :
    r.runAlone (w.map seen) = ((r'.runAlone w).1, (r'.runAlone w).2.map seen) := by
  induction h generalizing w with
  | done value => rfl
  | act same _ ih =>
      simp only [runAlone]
      rw [← same w]
      exact ih w _
  | note unseen _ ih =>
      simp only [runAlone]
      rw [← unseen w]
      exact ih w _
  | pause micros _ ih =>
      cases micros with
      | zero => exact ih w
      | succ micros =>
          simp only [runAlone, World.map_wait, show (w.map seen).clock = w.clock from rfl]
          cases w.wait (w.clock + (micros + 1)) with
          | mk reached later =>
              cases reached with
              | true => exact ih later
              | false => rfl
  | acquire _ ih => exact ih w
  | release _ ih => exact ih w

/-- To their ends they run alike too. -/
theorem Shadows.runToEnd_eq {r' : Routine τ α} {r : Routine σ α} (h : r'.Shadows seen r)
    (w : World τ) :
    r.runToEnd (w.map seen) = ((r'.runToEnd w).1, (r'.runToEnd w).2.map seen) := by
  induction h generalizing w with
  | done value => rfl
  | act same _ ih =>
      simp only [runToEnd]
      rw [← same w]
      exact ih w _
  | note unseen _ ih =>
      simp only [runToEnd]
      rw [← unseen w]
      exact ih w _
  | pause micros _ ih =>
      cases micros with
      | zero => exact ih w
      | succ micros => exact ih (w.passTo (w.clock + (micros + 1)))
  | acquire _ ih => exact ih w
  | release _ ih => exact ih w

/-- Where both stop for now, what is left of the first shadows what is left of the second. -/
inductive Halt.Shadows (seen : τ → σ) : Halt τ α → Halt σ α → Prop where
  | ended (value : α) : Shadows seen (.ended value) (.ended value)
  | paused (micros : Nat) {next' : Routine τ α} {next : Routine σ α}
      (onward : next'.Shadows seen next) : Shadows seen (.paused micros next') (.paused micros next)
  | blocked {next' : Routine τ α} {next : Routine σ α} (onward : next'.Shadows seen next) :
      Shadows seen (.blocked next') (.blocked next)

/-- Two bursts that cannot be told from each other. -/
inductive Burst.Shadows (seen : τ → σ) : Burst τ α → Burst σ α → Prop where
  | mk {halt' : Halt τ α} {halt : Halt σ α} (stopped : halt'.Shadows seen halt) (w : World τ)
      (lock : Lock) (woken : List Nat) :
      Shadows seen ⟨halt', w, lock, woken⟩ ⟨halt, w.map seen, lock, woken⟩

theorem Shadows.burst {r' : Routine τ α} {r : Routine σ α} (h : r'.Shadows seen r) (w : World τ)
    (lock : Lock) (woken : List Nat) :
    (r'.burst w lock woken).Shadows seen (r.burst (w.map seen) lock woken) := by
  induction h generalizing w lock woken with
  | done value => exact .mk (.ended value) w lock woken
  | act same _ ih =>
      simp only [Routine.burst]
      rw [← same w]
      exact ih w _ lock woken
  | note unseen _ ih =>
      simp only [Routine.burst]
      rw [← unseen w]
      exact ih w _ lock woken
  | pause micros onward => exact .mk (.paused micros onward) w lock woken
  | acquire onward ih =>
      simp only [Routine.burst]
      split
      · exact .mk (.blocked onward) w lock woken
      · exact ih w _ woken
  | release onward ih =>
      simp only [Routine.burst]
      split
      · exact ih w _ woken
      · exact ih w _ _

/-- Two members that stand at the same place. -/
inductive Member.Shadows (seen : τ → σ) : Member τ α → Member σ α → Prop where
  | ready {r' : Routine τ α} {r : Routine σ α} (onward : r'.Shadows seen r) :
      Shadows seen (.ready r') (.ready r)
  | paused (wake order : Nat) {r' : Routine τ α} {r : Routine σ α} (onward : r'.Shadows seen r) :
      Shadows seen (.paused wake order r') (.paused wake order r)
  | blocked {r' : Routine τ α} {r : Routine σ α} (onward : r'.Shadows seen r) :
      Shadows seen (.blocked r') (.blocked r)
  | ended (value : α) : Shadows seen (.ended value) (.ended value)

theorem Member.Shadows.woken {m' : Member τ α} {m : Member σ α} (h : m'.Shadows seen m) :
    m'.woken.Shadows seen m.woken := by
  cases h with
  | ready onward | paused _ _ onward | blocked onward => exact .ready onward
  | ended value => exact .ended value

end

namespace Group

variable {seen : τ → σ}

/-- Two groups whose members stand at the same places. -/
structure Shadows (seen : τ → σ) (g' : Group τ α) (g : Group σ α) : Prop where
  world : g.world = g'.world.map seen
  members : ∀ i : Nat, Option.Rel (Member.Shadows seen) g'.members[i]? g.members[i]?
  queue : g.queue = g'.queue
  lock : g.lock = g'.lock
  pauses : g.pauses = g'.pauses

theorem rel_wakeAll {members' : List (Member τ α)} {members : List (Member σ α)}
    (h : ∀ i : Nat, Option.Rel (Member.Shadows seen) members'[i]? members[i]?)
    (waking : List Nat) (i : Nat) :
    Option.Rel (Member.Shadows seen) (waking.foldl wake members')[i]?
      (waking.foldl wake members)[i]? := by
  rw [getElem?_wakeAll, getElem?_wakeAll]
  refine rel_map (fun m' m related => ?_) (h i)
  split
  · exact related.woken
  · exact related

/-- The place of a member in time, if it pauses. -/
def pause? : Member σ α → Option (Nat × Nat)
  | .paused wake order _ => some (wake, order)
  | _ => none

theorem pausing_eq (members : List (Member σ α)) :
    pausing members =
      (members.map pause?).zipIdx.filterMap fun (p, i) => p.map fun p => (i, p.1, p.2) := by
  rw [List.zipIdx_map, List.filterMap_map]
  refine congrArg (List.filterMap · _) (funext fun (m, i) => ?_)
  cases m <;> rfl

theorem pausing_of_shadows {members' : List (Member τ α)} {members : List (Member σ α)}
    (h : ∀ i : Nat, Option.Rel (Member.Shadows seen) members'[i]? members[i]?) :
    pausing members' = pausing members := by
  rw [pausing_eq, pausing_eq]
  have hplaces : members'.map pause? = members.map pause? := by
    refine List.ext_getElem? fun i => ?_
    rw [List.getElem?_map, List.getElem?_map]
    have hi := h i
    generalize members'[i]? = m' at hi
    generalize members[i]? = m at hi
    rcases hi with related | _
    · cases related <;> rfl
    · rfl
  rw [hplaces]

theorem answers_of_shadows {members' : List (Member τ α)} {members : List (Member σ α)}
    (h : ∀ i : Nat, Option.Rel (Member.Shadows seen) members'[i]? members[i]?) :
    answers? members' = answers? members := by
  induction members' generalizing members with
  | nil =>
      cases members with
      | nil => rfl
      | cons m rest => cases h 0
  | cons m' rest' ih =>
      cases members with
      | nil => cases h 0
      | cons m rest =>
          have hrest : answers? rest' = answers? rest := ih fun i => h (i + 1)
          cases h 0 with
          | some related => cases related <;> simp only [answers?, hrest]

theorem rel_set {members' : List (Member τ α)} {members : List (Member σ α)}
    (h : ∀ i : Nat, Option.Rel (Member.Shadows seen) members'[i]? members[i]?)
    {m' : Member τ α} {m : Member σ α} (hm : m'.Shadows seen m) (i j : Nat) :
    Option.Rel (Member.Shadows seen) (members'.set i m')[j]? (members.set i m)[j]? := by
  rw [List.getElem?_set', List.getElem?_set']
  split
  · exact rel_map (fun _ _ _ => hm) (h j)
  · exact h j

theorem Shadows.turn {g' : Group τ α} {g : Group σ α} (h : g'.Shadows seen g) {r' : Routine τ α}
    {r : Routine σ α} (hr : r'.Shadows seen r) (i : Nat) (queue : List Nat) :
    (g'.turn i r' queue).Shadows seen (g.turn i r queue) := by
  have hburst := hr.burst g'.world g'.lock []
  rw [← h.world, ← h.lock] at hburst
  unfold Group.turn
  rw [← h.lock]
  generalize r'.burst g'.world g.lock [] = b' at hburst
  generalize r.burst g.world g.lock [] = b at hburst
  obtain ⟨stopped, w', lock, woken⟩ := hburst
  have hwoken := rel_wakeAll h.members woken
  cases stopped with
  | ended value => exact ⟨rfl, rel_set hwoken (.ended value) i, rfl, rfl, h.pauses⟩
  | blocked onward => exact ⟨rfl, rel_set hwoken (.blocked onward) i, rfl, rfl, h.pauses⟩
  | paused micros onward =>
      cases micros with
      | zero => exact ⟨rfl, rel_set hwoken (.ready onward) i, rfl, rfl, h.pauses⟩
      | succ micros =>
          refine ⟨rfl, ?_, rfl, rfl, congrArg (· + 1) h.pauses⟩
          simp only [h.pauses]
          exact rel_set hwoken (.paused _ _ onward) i

theorem Shadows.run_eq (bound : Nat) {g' : Group τ α} {g : Group σ α} (h : g'.Shadows seen g) :
    g.run bound = ((g'.run bound).1, (g'.run bound).2.map seen) := by
  induction bound generalizing g' g with
  | zero => exact congrArg _ h.world
  | succ bound ih =>
      have hwake : nextWake? g.members = nextWake? g'.members := by
        rw [nextWake?, nextWake?, pausing_of_shadows h.members]
      have hwaking (time : Nat) : wakingAt g.members time = wakingAt g'.members time := by
        rw [wakingAt, wakingAt, pausing_of_shadows h.members]
      unfold run
      rw [h.queue]
      cases g'.queue with
      | cons i queue =>
          simp only
          have hi := h.members i
          generalize hm' : g'.members[i]? = m' at hi
          generalize hm : g.members[i]? = m at hi
          rcases hi with related | _
          · cases related with
            | ready onward => exact ih (h.turn onward i queue)
            | paused | blocked | ended => exact ih ⟨h.world, h.members, rfl, h.lock, h.pauses⟩
          · exact ih ⟨h.world, h.members, rfl, h.lock, h.pauses⟩
      | nil =>
          simp only [answers_of_shadows h.members, hwake, h.world, World.map_wait, hwaking]
          cases answers? g.members with
          | some values => rfl
          | none =>
              cases nextWake? g'.members with
              | none => rfl
              | some time =>
                  simp only
                  cases g'.world.wait time with
                  | mk reached w =>
                      cases reached with
                      | false => rfl
                      | true =>
                          exact ih ⟨rfl, rel_wakeAll h.members _, rfl, h.lock, h.pauses⟩

end Group

theorem rel_getElem? {R : Routine τ α → Routine σ α → Prop} {routines' : List (Routine τ α)}
    {routines : List (Routine σ α)} (h : List.Forall₂ R routines' routines) (i : Nat) :
    Option.Rel R routines'[i]? routines[i]? := by
  induction h generalizing i with
  | nil => exact .none
  | cons head _ ih =>
      cases i with
      | zero => exact .some head
      | succ i => exact ih i

/-- Routines that begin at once, each the shadow of another, come to the same end as the others. -/
theorem Shadows.runTogether_eq {seen : τ → σ} {routines' : List (Routine τ α)}
    {routines : List (Routine σ α)} (h : List.Forall₂ (Shadows seen) routines' routines)
    (bound : Nat) (w : World τ) :
    runTogether bound routines (w.map seen) =
      ((runTogether bound routines' w).1, (runTogether bound routines' w).2.map seen) := by
  refine Group.Shadows.run_eq bound ⟨rfl, fun i => ?_, ?_, rfl, rfl⟩
  · simp only [Group.start, List.getElem?_map]
    exact rel_map (fun _ _ related => .ready related) (rel_getElem? h i)
  · simp only [Group.start, h.length_eq]

end Routine

namespace Activity

/-- An activity whose routines shadow those of another. -/
inductive Shadows (seen : τ → σ) : Activity τ → Activity σ → Prop where
  | alone {r' : Routine τ Verdict} {r : Routine σ Verdict} (shadows : r'.Shadows seen r) :
      Shadows seen (.alone r') (.alone r)
  | together {workers' : List (Command.Routine τ Wait.Slot)}
      {workers : List (Command.Routine σ Wait.Slot)}
      (shadows : List.Forall₂ (Routine.Shadows seen) workers' workers)
      (judge : Bool → Except Failure Wait.Several → Verdict) (selectors : List String) :
      Shadows seen (.together workers' judge selectors) (.together workers judge selectors)
  | rest (micros : Nat) (ended woken : Verdict) (interrupted : String) :
      Shadows seen (.rest micros ended woken interrupted) (.rest micros ended woken interrupted)

theorem restUntil_map (seen : τ → σ) (time : Nat) (ended woken : Verdict) (interrupted : String)
    (w : World τ) :
    restUntil time ended woken interrupted (w.map seen) =
      ((restUntil time ended woken interrupted w).1,
        (restUntil time ended woken interrupted w).2.map seen) := by
  unfold restUntil
  rw [show (w.map seen).cancelled = w.cancelled from rfl,
    show (w.map seen).cancelAt = w.cancelAt from rfl]
  simp only [World.map_wait]
  cases w.cancelled with
  | true => rfl
  | false =>
      cases w.cancelAt.filter (· < time) with
      | none =>
          simp only
          cases w.wait time with
          | mk reached later => cases reached <;> rfl
      | some due =>
          simp only
          cases w.wait due with
          | mk reached later => cases reached <;> rfl

/-- An activity comes to the same end as its shadow. -/
theorem Shadows.run_eq {seen : τ → σ} {activity' : Activity τ} {activity : Activity σ}
    (h : activity'.Shadows seen activity) (turns : Nat) (w : World τ) :
    activity.run turns (w.map seen) =
      ((activity'.run turns w).1, (activity'.run turns w).2.map seen) := by
  cases h with
  | alone shadows =>
      simp only [run, shadows.runAlone_eq w]
      rcases Routine.runAlone _ w with ⟨_ | v, later⟩ <;> rfl
  | together shadows judge selectors =>
      simp only [run, Routine.Shadows.runTogether_eq shadows turns w]
      rcases Routine.runTogether turns _ w with ⟨values | _ | _, later⟩ <;> rfl
  | rest micros ended woken interrupted =>
      cases micros with
      | zero => rfl
      | succ micros => exact restUntil_map seen _ ended woken interrupted w

end Activity

end BrowserSteps
