import BrowserSteps.Proofs.Routine.Clock

/-!
Routines among others. The terms of a routine say what it relies on while it waits and what each of
its own changes guarantees; a routine meets them if it keeps the guarantee and its answer is as
promised, whatever happens within the rely. Routines each of which guarantees what the others rely
on meet their terms together, in whatever order they get their turns.
-/

namespace BrowserSteps.Routine

variable {σ α β : Type}

/-- What may happen to the world while a routine waits, and what the routine does to it. A routine
has to bear that time passes. -/
structure Terms (σ : Type) where
  rely : World σ → World σ → Prop
  guarantee : World σ → World σ → Prop
  rely_refl : ∀ w, rely w w
  rely_trans : ∀ {w later last}, rely w later → rely later last → rely w last
  rely_passTo : ∀ w time, rely w (w.passTo time)

/-- From this world on the routine guarantees its changes, and its answer is as promised. -/
def Meets (t : Terms σ) (post : α → World σ → Prop) : Routine σ α → World σ → Prop
  | .done value, w => ∀ later, t.rely w later → post value later
  | .act change next, w =>
    t.guarantee w (w.apply (change w)) ∧ (next w).Meets t post (w.apply (change w))
  | .pause _ next, w | .acquire next, w => ∀ later, t.rely w later → next.Meets t post later
  | .release next, w => next.Meets t post w

section

variable {t : Terms σ} {post : α → World σ → Prop}

/-- A sequence promises what its second part promises after the first. -/
theorem Meets.bind {last : β → World σ → Prop} {f : α → Routine σ β} {r : Routine σ α}
    {w : World σ} (h : r.Meets t post w)
    (hf : ∀ value later, post value later → (f value).Meets t last later) :
    (r.bind f).Meets t last w := by
  induction r generalizing w with
  | done value => exact hf value w (h w (t.rely_refl w))
  | act change next ih => exact ⟨h.1, ih w h.2⟩
  | pause micros next ih => exact fun later hlater => ih (h later hlater)
  | acquire next ih => exact fun later hlater => ih (h later hlater)
  | release next ih => exact ih h

/-- What is promised can be less. -/
theorem Meets.of_post {less : α → World σ → Prop} {r : Routine σ α} {w : World σ}
    (h : r.Meets t post w) (hless : ∀ value later, post value later → less value later) :
    r.Meets t less w := by
  induction r generalizing w with
  | done value => exact fun later hlater => hless value later (h later hlater)
  | act change next ih => exact ⟨h.1, ih w h.2⟩
  | pause micros next ih => exact fun later hlater => ih (h later hlater)
  | acquire next ih => exact fun later hlater => ih (h later hlater)
  | release next ih => exact ih h

/-- A routine that runs alone answers as promised. -/
theorem Meets.of_runAlone {r : Routine σ α} {w later : World σ} {value : α}
    (h : r.Meets t post w) (hrun : r.runAlone w = (some value, later)) : post value later := by
  induction r generalizing w with
  | done _ =>
      simp only [runAlone, Prod.mk.injEq, Option.some.injEq] at hrun
      obtain ⟨rfl, rfl⟩ := hrun
      exact h _ (t.rely_refl _)
  | act change next ih => exact ih w h.2 hrun
  | pause micros next ih =>
      cases micros with
      | zero => exact ih (h w (t.rely_refl w)) hrun
      | succ micros =>
          simp only [runAlone] at hrun
          split at hrun
          next after reached =>
            rw [World.eq_passTo_of_wait reached] at hrun
            exact ih (h _ (t.rely_passTo w _)) hrun
          next => cases hrun
  | acquire next ih => exact ih (h w (t.rely_refl w)) hrun
  | release next ih => exact ih h hrun

/-- Who relies on what a routine guarantees can bear that it runs alone. -/
theorem Meets.rely_runAlone {other : Terms σ}
    (agree : ∀ {w later}, t.guarantee w later → other.rely w later) {r : Routine σ α} {w : World σ}
    (h : r.Meets t post w) : other.rely w (r.runAlone w).2 := by
  induction r generalizing w with
  | done value => exact other.rely_refl w
  | act change next ih => exact other.rely_trans (agree h.1) (ih w h.2)
  | pause micros next ih =>
      cases micros with
      | zero => exact ih (h w (t.rely_refl w))
      | succ micros =>
          obtain ⟨time, hpassed⟩ := World.wait_eq_passTo w (w.clock + (micros + 1))
          simp only [runAlone]
          split
          next later reached =>
            rw [reached] at hpassed
            subst hpassed
            exact other.rely_trans (other.rely_passTo w time) (ih (h _ (t.rely_passTo w time)))
          next later missed =>
            rw [missed] at hpassed
            exact hpassed ▸ other.rely_passTo w time
  | acquire next ih => exact ih (h w (t.rely_refl w))
  | release next ih => exact ih h

/-- And that it runs to its end, whatever the deadline. -/
theorem Meets.rely_runToEnd {other : Terms σ}
    (agree : ∀ {w later}, t.guarantee w later → other.rely w later) {r : Routine σ α} {w : World σ}
    (h : r.Meets t post w) : other.rely w (r.runToEnd w).2 := by
  induction r generalizing w with
  | done value => exact other.rely_refl w
  | act change next ih => exact other.rely_trans (agree h.1) (ih w h.2)
  | pause micros next ih =>
      cases micros with
      | zero => exact ih (h w (t.rely_refl w))
      | succ micros =>
          have hpassed := other.rely_passTo w (w.clock + (micros + 1))
          exact other.rely_trans hpassed (ih (h _ (t.rely_passTo w _)))
  | acquire next ih => exact ih (h w (t.rely_refl w))
  | release next ih => exact ih h

/-- What remains of a routine that stopped for now meets the terms in whatever world it goes on. -/
def Halt.Meets (t : Terms σ) (post : α → World σ → Prop) : Halt σ α → World σ → Prop
  | .ended value, w => ∀ later, t.rely w later → post value later
  | .paused _ next, w | .blocked next, w => ∀ later, t.rely w later → next.Meets t post later

theorem Meets.halt_burst {r : Routine σ α} {w : World σ} (h : r.Meets t post w) (lock : Lock)
    (woken : List Nat) : (r.burst w lock woken).halt.Meets t post (r.burst w lock woken).world := by
  induction r generalizing w lock woken with
  | done value => exact h
  | act change next ih => exact ih w h.2 lock woken
  | pause micros next ih => exact h
  | acquire next ih =>
      simp only [burst]
      split
      · exact h
      · exact ih (h w (t.rely_refl w)) _ _
  | release next ih =>
      simp only [burst]
      split
      · exact ih h _ _
      · exact ih h _ _

/-- Who relies on what a routine guarantees can bear its turn. -/
theorem Meets.rely_burst {other : Terms σ}
    (agree : ∀ {w later}, t.guarantee w later → other.rely w later) {r : Routine σ α} {w : World σ}
    (h : r.Meets t post w) (lock : Lock) (woken : List Nat) :
    other.rely w (r.burst w lock woken).world := by
  induction r generalizing w lock woken with
  | done value => exact other.rely_refl w
  | act change next ih => exact other.rely_trans (agree h.1) (ih w h.2 lock woken)
  | pause micros next ih => exact other.rely_refl w
  | acquire next ih =>
      simp only [burst]
      split
      · exact other.rely_refl w
      · exact ih (h w (t.rely_refl w)) _ _
  | release next ih =>
      simp only [burst]
      split
      · exact ih h _ _
      · exact ih h _ _

/-- A member meets its terms in whatever world it gets its next turn. -/
def Member.Meets (t : Terms σ) (post : α → World σ → Prop) : Member σ α → World σ → Prop
  | .ready routine, w | .paused _ _ routine, w | .blocked routine, w =>
    ∀ later, t.rely w later → routine.Meets t post later
  | .ended value, w => ∀ later, t.rely w later → post value later

theorem Member.Meets.mono {m : Member σ α} {w later : World σ} (h : m.Meets t post w)
    (hlater : t.rely w later) : m.Meets t post later := by
  cases m <;> exact fun last hlast => h last (t.rely_trans hlater hlast)

theorem Halt.Meets.ofHalt {halt : Halt σ α} {w : World σ} (h : halt.Meets t post w)
    (clock order : Nat) : (Member.ofHalt clock order halt).Meets t post w := by
  cases halt with
  | ended value | blocked next => exact h
  | paused micros next => cases micros <;> exact h

end

namespace Group

variable {terms : Nat → Terms σ} {posts : Nat → α → World σ → Prop}

/-- Every member meets its own terms. -/
def Meets (terms : Nat → Terms σ) (posts : Nat → α → World σ → Prop) (w : World σ)
    (members : List (Member σ α)) : Prop :=
  ∀ (i : Nat) (m : Member σ α), members[i]? = some m → m.Meets (terms i) (posts i) w

theorem Meets.wakeAll {w : World σ} {members : List (Member σ α)}
    (h : Meets terms posts w members) (waking : List Nat) :
    Meets terms posts w (waking.foldl wake members) := by
  intro i m at_i
  rw [getElem?_wakeAll] at at_i
  obtain ⟨old, old_at_i, rfl⟩ := Option.map_eq_some_iff.mp at_i
  have hold := h i old old_at_i
  split
  · cases old <;> exact hold
  · exact hold

/-- A turn of one member: it guarantees what the others rely on. -/
theorem Meets.turn (agree : ∀ {i j}, i ≠ j → ∀ {w later},
      (terms i).guarantee w later → (terms j).rely w later)
    {g : Group σ α} (h : Meets terms posts g.world g.members) {i : Nat} {routine : Routine σ α}
    (at_i : g.members[i]? = some (.ready routine)) (queue : List Nat) :
    Meets terms posts (g.turn i routine queue).world (g.turn i routine queue).members := by
  have hroutine : routine.Meets (terms i) (posts i) g.world :=
    h i _ at_i g.world ((terms i).rely_refl g.world)
  intro j m at_j
  rw [world_turn]
  rw [members_turn, List.getElem?_set] at at_j
  -- To the member itself its turn is its own doing, to the others something that happens.
  by_cases same : i = j
  · subst same
    obtain ⟨-, rfl⟩ : _ ∧ _ = m := by simpa using at_j
    exact (hroutine.halt_burst g.lock []).ofHalt _ _
  · rw [if_neg same] at at_j
    exact (h.wakeAll _ j m at_j).mono (hroutine.rely_burst (agree same) g.lock [])

/-- Time passes, and those whose pauses are over go on. -/
theorem Meets.wakeAt {g : Group σ α} (h : Meets terms posts g.world g.members) {time : Nat}
    {w : World σ} (reached : g.world.wait time = (true, w)) :
    Meets terms posts (g.wakeAt time w).world (g.wakeAt time w).members := by
  have hpassed : Meets terms posts w g.members := by
    intro i m at_i
    rw [World.eq_passTo_of_wait reached]
    exact (h i m at_i).mono ((terms i).rely_passTo g.world time)
  exact hpassed.wakeAll _

/-- Members that go on until all have ended answer as promised, each in the world at the end. -/
theorem Meets.run (agree : ∀ {i j}, i ≠ j → ∀ {w later},
      (terms i).guarantee w later → (terms j).rely w later)
    (bound : Nat) {g : Group σ α} (h : Meets terms posts g.world g.members) {values : List α}
    {later : World σ} (hrun : g.run bound = (.ended values, later)) {i : Nat} {value : α}
    (at_i : values[i]? = some value) : posts i value later := by
  induction bound generalizing g with
  | zero => cases hrun
  | succ bound ih =>
      obtain ⟨next, hsteps, hnext⟩ := g.run_steps
      rw [hnext] at hrun
      cases hsteps with
      | turn _ at_j => exact ih (h.turn agree at_j _) hrun
      | @skip _ queue => exact ih (g := { g with queue }) h hrun
      | wake _ _ _ reached => exact ih (h.wakeAt reached) hrun
      | ended _ answered =>
          cases hrun
          refine h i (.ended value) ?_ g.world ((terms i).rely_refl g.world)
          simp only [members_of_answers answered, List.getElem?_map, at_i, Option.map_some]
      | stuck | cut => cases hrun

/-- Who relies on what all members guarantee can bear all that they do. -/
theorem Meets.rely_run {observer : Terms σ} (agree : ∀ {i j}, i ≠ j → ∀ {w later},
      (terms i).guarantee w later → (terms j).rely w later)
    (bound : Nat) {g : Group σ α} (h : Meets terms posts g.world g.members)
    (bears : ∀ i < g.members.length, ∀ {w later},
      (terms i).guarantee w later → observer.rely w later) :
    observer.rely g.world (g.run bound).2 := by
  induction bound generalizing g with
  | zero => exact observer.rely_refl g.world
  | succ bound ih =>
      obtain ⟨next, hsteps, hnext⟩ := g.run_steps
      rw [hnext]
      cases hsteps with
      | @turn i queue routine _ at_i =>
          have hroutine := h i _ at_i g.world ((terms i).rely_refl g.world)
          obtain ⟨in_range, -⟩ := List.getElem?_eq_some_iff.mp at_i
          have hturn : observer.rely g.world (g.turn i routine queue).world := by
            rw [world_turn]
            exact hroutine.rely_burst (bears i in_range) g.lock []
          refine observer.rely_trans hturn (ih (h.turn agree at_i queue) ?_)
          rwa [length_turn]
      | @skip _ queue => exact ih (g := { g with queue }) h bears
      | ended | stuck => exact observer.rely_refl g.world
      | @cut time w _ _ missed =>
          obtain ⟨time, hpassed⟩ := World.wait_eq_passTo g.world time
          rw [missed] at hpassed
          exact hpassed ▸ observer.rely_passTo g.world time
      | @wake time w _ _ _ reached =>
          have hwake : observer.rely g.world w :=
            World.eq_passTo_of_wait reached ▸ observer.rely_passTo g.world time
          refine observer.rely_trans hwake (ih (h.wakeAt reached) ?_)
          rwa [length_wakeAt]

end Group

/-- Routines that meet their terms where they begin do so as the members of a group. -/
theorem Group.meets_start {terms : Nat → Terms σ} {posts : Nat → α → World σ → Prop}
    {routines : List (Routine σ α)} {w : World σ}
    (h : ∀ i r, routines[i]? = some r → ∀ later, (terms i).rely w later →
      r.Meets (terms i) (posts i) later) :
    Group.Meets terms posts (start routines w).world (start routines w).members := by
  intro i m at_i
  simp only [start, List.getElem?_map] at at_i
  obtain ⟨r, r_at_i, rfl⟩ := Option.map_eq_some_iff.mp at_i
  exact h i r r_at_i

end BrowserSteps.Routine
