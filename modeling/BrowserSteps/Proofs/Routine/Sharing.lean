import BrowserSteps.Proofs.Routine.Completion

/-!
Several routines that share the lock. If each of them is orderly and keeps to one custody, then
whatever order they get their turns in, each ends as promised: the others do to the world only what
it can bear, whoever gets the lock finds what is true of the free lock, and where nobody keeps the
lock while time passes, a pause ends exactly when it is over.
-/

namespace BrowserSteps.Routine

variable {σ α : Type} {t : Custody σ}

/-- A routine that has given the lock back, and whose answer is as promised however long the others
go on. -/
def Lasting (t : Custody σ) (post : α → World σ → Prop) (value : α) (holds : Bool) (w : World σ) :
    Prop :=
  holds = false ∧ ∀ later, t.rely false w later → post value later

/-- A member keeps to the custody in whatever world it gets its next turn. -/
def Member.Keeps (t : Custody σ) (post : α → World σ → Prop) (holds : Bool) :
    Member σ α → World σ → Prop
  | .ready routine, w =>
    ∀ later, t.Ends holds 0 w later → routine.Keeps t (Lasting t post) holds later
  | .paused wake _ routine, w =>
    w.clock < wake ∧ (t.brief → holds = false) ∧
      ∀ later, t.rely holds w later → later.clock = wake →
        routine.Keeps t (Lasting t post) holds later
  | .blocked routine, w => ∀ later, t.Grants w later → routine.Keeps t (Lasting t post) true later
  | .ended value, w => ∀ later, t.rely false w later → post value later

section

variable {post : α → World σ → Prop} {holds : Bool} {w later : World σ}

theorem Custody.rely_false (h : t.rely holds w later) : t.rely false w later := by
  cases holds with
  | true => exact t.rely_of_holds h
  | false => exact h

/-- A member can bear what it relies on, as long as no time passes. -/
theorem Member.Keeps.mono {m : Member σ α} (h : m.Keeps t post holds w) (hrely : t.rely holds w later)
    (clock : later.clock = w.clock) : m.Keeps t post holds later := by
  cases m with
  | ready routine =>
      rintro last ⟨hlast, same⟩
      exact h last ⟨t.rely_trans hrely hlast, same.trans clock⟩
  | paused wake order routine =>
      refine ⟨clock ▸ h.1, h.2.1, fun last hlast => h.2.2 last (t.rely_trans hrely hlast)⟩
  | blocked routine =>
      rintro last ⟨hlast, free, brief⟩
      exact h last ⟨t.rely_trans (Custody.rely_false hrely) hlast, free,
        fun h => (brief h).trans clock⟩
  | ended value => exact fun last hlast => h last (t.rely_trans (Custody.rely_false hrely) hlast)

/-- Whoever is let in holds the lock, and finds what is true of the free lock. -/
theorem Member.Keeps.letIn {routine : Routine σ α}
    (h : (Member.blocked routine).Keeps t post holds w) (hrely : t.rely false w later)
    (clock : later.clock = w.clock) (free : t.free later) :
    (Member.ready routine).Keeps t post true later := by
  rintro last ⟨hlast, same⟩
  exact h last ⟨t.rely_trans hrely (t.rely_of_holds hlast), t.free_of_rely hlast free,
    fun _ => same.trans clock⟩

theorem Halt.Keeps.ofHalt {halt : Halt σ α} (h : halt.Keeps t (Lasting t post) holds w)
    (order : Nat) : (Member.ofHalt w.clock order halt).Keeps t post holds w := by
  cases halt with
  | ended value => exact h.2
  | blocked next => exact h
  | paused micros next =>
      cases micros with
      | zero => exact h.2
      | succ micros =>
          refine ⟨Nat.lt_add_of_pos_right (Nat.succ_pos micros), fun brief => ?_, ?_⟩
          · exact Bool.eq_false_iff.mpr fun held => Nat.succ_ne_zero micros (h.1 brief held)
          · exact fun later hrely clock => h.2 later ⟨hrely, clock⟩

end

namespace Group

/-- Every member keeps to the custody, and what is true of the free lock is true if nobody holds
it. -/
structure Keeps (t : Custody σ) (posts : Nat → α → World σ → Prop) (g : Group σ α)
    (holder : Option Nat) : Prop where
  free : holder = none → t.free g.world
  member : ∀ (i : Nat) (m : Member σ α), g.members[i]? = some m →
    m.Keeps t (posts i) (holder = some i) g.world

theorem keeps_start {posts : Nat → α → World σ → Prop} {routines : List (Routine σ α)}
    {w : World σ} (free : t.free w)
    (h : ∀ (i : Nat) (r : Routine σ α), routines[i]? = some r → ∀ later, t.Ends false 0 w later →
      r.Keeps t (Lasting t (posts i)) false later) :
    (start routines w).Keeps t posts none := by
  refine ⟨fun _ => free, fun i m at_i => ?_⟩
  simp only [start, List.getElem?_map] at at_i
  obtain ⟨r, r_at_i, rfl⟩ := Option.map_eq_some_iff.mp at_i
  exact h i r r_at_i

section

variable {posts : Nat → α → World σ → Prop} {g : Group σ α} {holder : Option Nat}

/-- The turn of a member: what it does to the world the others can bear. -/
theorem Keeps.turn (h : g.Keeps t posts holder) (orderly : g.Orderly holder) {i : Nat}
    {queue : List Nat} {routine : Routine σ α} (queue_eq : g.queue = i :: queue)
    (at_i : g.members[i]? = some (.ready routine)) :
    t.rely false g.world (g.turn i routine queue).world ∧
      ∃ after, (g.turn i routine queue).Orderly after ∧
        (g.turn i routine queue).Keeps t posts after := by
  obtain ⟨aside, hroutine⟩ := orderly.member i _ at_i
  have hkeeps := h.member i _ at_i g.world ⟨t.rely_refl _ _, rfl⟩
  obtain ⟨after, letIn, passes, bears⟩ := hkeeps.burst hroutine orderly.heldBy aside h.free []
  have in_range : i < g.members.length := (List.getElem?_eq_some_iff.mp at_i).1
  have hwoken : (routine.burst g.world g.lock []).woken = letIn := passes.woken_eq
  rw [world_turn]
  refine ⟨bears.rely, after, orderly.of_passes queue_eq at_i passes, ?_, ?_⟩
  · rw [world_turn]
    exact fun nobody => bears.free (.inl nobody)
  intro j m at_j
  rw [world_turn]
  rw [getElem?_turn g i routine queue in_range] at at_j
  split at at_j
  next same =>
    cases same
    cases at_j
    exact bears.halt.ofHalt g.pauses
  next other =>
    obtain ⟨old, old_at_j, rfl⟩ := Option.map_eq_some_iff.mp at_j
    have hold := h.member j old old_at_j
    have holds := passes.others j (Ne.symm other)
    rw [hwoken]
    split
    next chosen =>
      have taken : after = some j := holds.mpr (.inr chosen)
      have waits : j ∈ g.lock.waiting := by
        rw [passes.waiting_eq]
        exact List.mem_append_left _ chosen
      have fits := orderly.member j old old_at_j
      rw [decide_eq_true taken]
      cases old with
      | blocked rest => exact hold.letIn bears.rely bears.clock (bears.free (.inr ⟨j, chosen, taken⟩))
      | ready rest | paused _ _ rest | ended value => exact absurd waits fits.1
    next passed =>
      rw [or_iff_left passed] at holds
      rw [decide_eq_decide.mpr holds]
      refine hold.mono ?_ bears.clock
      by_cases held : holder = some j
      · rw [decide_eq_true held]
        exact bears.holder j (Ne.symm other) held
      · rw [decide_eq_false held]
        exact bears.rely

/-- Where nobody keeps the lock while time passes, nobody holds it when all wait. -/
theorem Keeps.unheld (h : g.Keeps t posts holder) (orderly : g.Orderly holder) (idle : g.queue = [])
    (brief : t.brief) : holder = none := by
  refine Option.eq_none_iff_forall_ne_some.mpr fun j held => ?_
  obtain ⟨m, at_j⟩ : ∃ m, g.members[j]? = some m :=
    ⟨_, List.getElem?_eq_getElem (orderly.inside j (.inl held))⟩
  have fits := orderly.member j m at_j
  cases m with
  | ready routine =>
      have hqueued := orderly.queued j routine at_j
      rw [idle] at hqueued
      cases hqueued
  | paused wake order routine =>
      exact absurd held (of_decide_eq_false ((h.member j _ at_j).2.1 brief))
  | blocked routine => exact orderly.heldBy.apart j fits.1 held
  | ended value => exact fits.2 held

theorem Keeps.wakeAt (h : g.Keeps t posts holder) (orderly : g.Orderly holder) (idle : g.queue = [])
    {time : Nat} (next : nextWake? g.members = some time) :
    t.rely false g.world (g.world.passTo time) ∧
      (g.wakeAt time (g.world.passTo time)).Keeps t posts holder := by
  have ahead : g.world.clock < time := by
    obtain ⟨i, order, routine, paused⟩ := paused_of_nextWake next
    exact (h.member i _ paused).1
  have hpassed (holds : Bool) : t.rely holds g.world (g.world.passTo time) :=
    t.rely_passTo holds ahead
  refine ⟨hpassed false, fun nobody => t.free_of_rely (hpassed true) (h.free nobody), ?_⟩
  intro j m at_j
  simp only [Group.wakeAt, getElem?_wakeAll] at at_j
  obtain ⟨old, old_at_j, rfl⟩ := Option.map_eq_some_iff.mp at_j
  have hold := h.member j old old_at_j
  split
  next waking =>
    obtain ⟨order, routine, paused⟩ := mem_wakingAt.mp waking
    obtain rfl : old = .paused time order routine := by simpa [old_at_j] using paused
    rintro later ⟨hlater, clock⟩
    exact hold.2.2 later (t.rely_trans (hpassed _) hlater) clock
  next sleeping =>
    cases old with
    | ready routine =>
        have hqueued := orderly.queued j routine old_at_j
        rw [idle] at hqueued
        cases hqueued
    | paused wake order routine =>
        have later_than : time ≤ wake :=
          nextWake_ahead next wake order routine (List.mem_of_getElem? old_at_j)
        have other_than : time ≠ wake := fun same =>
          sleeping (mem_wakingAt.mpr ⟨order, routine, same ▸ old_at_j⟩)
        exact ⟨Nat.lt_of_le_of_ne later_than other_than, hold.2.1,
          fun later hlater => hold.2.2 later (t.rely_trans (hpassed _) hlater)⟩
    | blocked routine =>
        rintro later ⟨hlater, free, -⟩
        refine hold later ⟨t.rely_trans (hpassed false) hlater, free, fun brief => ?_⟩
        -- Nobody waits for a lock that nobody holds.
        have waits := (orderly.member j _ old_at_j).1
        rw [orderly.heldBy.nobody (h.unheld orderly idle brief)] at waits
        cases waits
    | ended value => exact fun later hlater => hold later (t.rely_trans (hpassed false) hlater)

theorem Orderly.free_of_ended {values : List α} (orderly : g.Orderly holder)
    (answered : answers? g.members = some values) : holder = none := by
  refine Option.eq_none_iff_forall_ne_some.mpr fun j held => ?_
  obtain ⟨m, at_j⟩ : ∃ m, g.members[j]? = some m :=
    ⟨_, List.getElem?_eq_getElem (orderly.inside j (.inl held))⟩
  have member := List.mem_of_getElem? at_j
  rw [members_of_answers answered] at member
  obtain ⟨value, -, rfl⟩ := List.mem_map.mp member
  exact (orderly.member j _ at_j).2 held

/-- All that the members do others can bear, up to where they are cut; if they are not, each ends as
promised, and what is true of the free lock is true. -/
theorem Keeps.run (bound : Nat) (h : g.Keeps t posts holder) (orderly : g.Orderly holder) :
    ∃ last, t.rely false g.world last ∧
      ((g.run bound).2 = last ∨ ∃ cut, (g.run bound).2 = last.passTo cut) ∧
      ∀ values, (g.run bound).1 = .ended values → (g.run bound).2 = last ∧ t.free last ∧
        ∀ i value, values[i]? = some value → posts i value last := by
  induction bound generalizing g holder with
  | zero => exact ⟨g.world, t.rely_refl _ _, .inl rfl, nofun⟩
  | succ bound ih =>
      obtain ⟨next, hsteps, hnext⟩ := g.run_steps
      rw [hnext]
      cases hsteps with
      | turn queue_eq at_i =>
          obtain ⟨hturn, after, horderly, hkeeps⟩ := h.turn orderly queue_eq at_i
          obtain ⟨last, hlast, hrest⟩ := ih hkeeps horderly
          exact ⟨last, t.rely_trans hturn hlast, hrest⟩
      | @skip _ queue queue_eq unready =>
          have hkeeps : Keeps t posts { g with queue } holder := ⟨h.free, h.member⟩
          exact ih hkeeps (orderly.skip queue_eq unready)
      | @wake time w idle _ next reached =>
          rw [World.eq_passTo_of_wait reached]
          obtain ⟨hwake, hkeeps⟩ := h.wakeAt orderly idle next
          obtain ⟨last, hlast, hrest⟩ := ih hkeeps (orderly.wakeAt idle time _)
          exact ⟨last, t.rely_trans hwake hlast, hrest⟩
      | @ended values idle answered =>
          refine ⟨g.world, t.rely_refl _ _, .inl rfl, fun values' same => ?_⟩
          obtain rfl : values = values' := Close.ended.inj same
          refine ⟨rfl, h.free (orderly.free_of_ended answered), fun i value at_i => ?_⟩
          refine h.member i (.ended value) ?_ g.world (t.rely_refl _ _)
          simp only [members_of_answers answered, List.getElem?_map, at_i, Option.map_some]
      | stuck => exact ⟨g.world, t.rely_refl _ _, .inl rfl, nofun⟩
      | @cut time w _ _ missed =>
          obtain ⟨cut, hcut⟩ := g.world.wait_eq_passTo time
          rw [missed] at hcut
          exact ⟨g.world, t.rely_refl _ _, .inr ⟨cut, hcut⟩, nofun⟩

end

end Group

end BrowserSteps.Routine
