import BrowserSteps.Routine.Together

/-!
What several routines can do next: one has its turn, an entry of the queue that is no longer ready
is passed over, the clock moves to the end of the next pause, or the group comes to its close. The
cases are said here once, with what a turn and a waking make of the members.
-/

namespace BrowserSteps.Routine

variable {σ α : Type}

/-- A member that has been woken. -/
def Member.woken : Member σ α → Member σ α
  | .paused _ _ routine | .blocked routine => .ready routine
  | m => m

/-- Where a member stands after its turn. -/
def Member.ofHalt (clock order : Nat) : Halt σ α → Member σ α
  | .ended value => .ended value
  | .blocked next => .blocked next
  | .paused 0 next => .ready next
  | .paused (micros + 1) next => .paused (clock + (micros + 1)) order next

/-- The lock after the turn of a member: one that has to wait for it stands last in line. -/
def Lock.line (i : Nat) (lock : Lock) : Halt σ α → Lock
  | .blocked _ => { lock with waiting := lock.waiting ++ [i] }
  | _ => lock

theorem Member.woken_woken (m : Member σ α) : m.woken.woken = m.woken := by
  cases m <;> rfl

/-- A pause that begins in a turn does not end before it. -/
theorem Member.le_of_ofHalt {clock order : Nat} {halt : Halt σ α} {time order' : Nat}
    {routine : Routine σ α} (h : Member.ofHalt clock order halt = .paused time order' routine) :
    clock ≤ time := by
  cases halt with
  | ended value | blocked next => cases h
  | paused micros next =>
      cases micros with
      | zero => cases h
      | succ micros =>
          cases h
          exact Nat.le_add_right clock _

namespace Group

theorem getElem?_wake (members : List (Member σ α)) (i j : Nat) :
    (wake members i)[j]? = members[j]?.map (if i = j then Member.woken else id) := by
  rw [wake, List.getElem?_modify]
  rcases members[j]? with _ | m
  · rfl
  · by_cases same : i = j
    · simp only [same, if_true, Option.map_some]
      cases m <;> rfl
    · simp only [same, if_false]
      rfl

/-- Those whose turn has come are woken, the others stay as they are. -/
theorem getElem?_wakeAll (members : List (Member σ α)) (waking : List Nat) (j : Nat) :
    (waking.foldl wake members)[j]? =
      members[j]?.map (if j ∈ waking then Member.woken else id) := by
  induction waking generalizing members with
  | nil => simp
  | cons i rest ih =>
      rw [List.foldl_cons, ih, getElem?_wake]
      rcases members[j]? with _ | m
      · rfl
      · by_cases hrest : j ∈ rest <;> by_cases same : i = j <;>
          simp [hrest, same, Ne.symm, Member.woken_woken]

theorem length_wakeAll (members : List (Member σ α)) (waking : List Nat) :
    (waking.foldl wake members).length = members.length := by
  induction waking generalizing members with
  | nil => rfl
  | cons i rest ih => rw [List.foldl_cons, ih, wake, List.length_modify]

theorem mem_pausing {members : List (Member σ α)} {i time order : Nat} :
    (i, time, order) ∈ pausing members ↔
      ∃ routine, members[i]? = some (.paused time order routine) := by
  constructor
  · intro pausing
    obtain ⟨⟨m, j⟩, hzip, hsome⟩ := List.mem_filterMap.mp pausing
    have at_j := List.mem_zipIdx_iff_getElem?.mp hzip
    cases m with
    | paused time' order' routine =>
        simp only [Option.some.injEq, Prod.mk.injEq] at hsome
        obtain ⟨rfl, rfl, rfl⟩ := hsome
        exact ⟨routine, at_j⟩
    | ready routine | blocked routine | ended value => cases hsome
  · rintro ⟨routine, at_i⟩
    exact List.mem_filterMap.mpr ⟨(_, i), List.mem_zipIdx_iff_getElem?.mpr at_i, rfl⟩

theorem mem_wakingAt {members : List (Member σ α)} {i time : Nat} :
    i ∈ wakingAt members time ↔
      ∃ order routine, members[i]? = some (.paused time order routine) := by
  simp only [wakingAt, List.mem_map, List.mem_mergeSort, List.mem_filter, decide_eq_true_eq]
  constructor
  · rintro ⟨⟨_, _, order⟩, ⟨pausing, rfl⟩, rfl⟩
    exact ⟨order, mem_pausing.mp pausing⟩
  · rintro ⟨order, paused⟩
    exact ⟨(i, time, order), ⟨mem_pausing.mpr paused, rfl⟩, rfl⟩

theorem nextWake_ne_none {members : List (Member σ α)} {i time order : Nat} {routine : Routine σ α}
    (paused : members[i]? = some (.paused time order routine)) : nextWake? members ≠ none := by
  intro endless
  have hnone := List.map_eq_nil_iff.mp (List.min?_eq_none_iff.mp endless)
  have hpausing := mem_pausing.mpr ⟨routine, paused⟩
  simp [hnone] at hpausing

theorem paused_of_nextWake {members : List (Member σ α)} {time : Nat}
    (next : nextWake? members = some time) :
    ∃ (i order : Nat) (routine : Routine σ α), members[i]? = some (.paused time order routine) := by
  obtain ⟨⟨i, _, order⟩, pausing, rfl⟩ := List.mem_map.mp (List.min?_mem next)
  obtain ⟨routine, paused⟩ := mem_pausing.mp pausing
  exact ⟨i, order, routine, paused⟩

theorem exists_unended {members : List (Member σ α)} (h : answers? members = none) :
    ∃ m ∈ members, ∀ value, m ≠ .ended value := by
  induction members with
  | nil => cases h
  | cons m rest ih =>
      cases m with
      | ended value =>
          obtain ⟨other, member, unended⟩ := ih (Option.map_eq_none_iff.mp h)
          exact ⟨other, List.mem_cons_of_mem _ member, unended⟩
      | ready routine | paused time order routine | blocked routine =>
          exact ⟨_, List.mem_cons_self, nofun⟩

section

variable (g : Group σ α) (i : Nat) (routine : Routine σ α) (queue : List Nat)

theorem world_turn : (g.turn i routine queue).world = (routine.burst g.world g.lock []).world := by
  unfold turn
  simp only
  split <;> rfl

theorem members_turn :
    (g.turn i routine queue).members =
      ((routine.burst g.world g.lock []).woken.foldl wake g.members).set i
        (.ofHalt (routine.burst g.world g.lock []).world.clock g.pauses
          (routine.burst g.world g.lock []).halt) := by
  unfold turn
  simp only
  split <;> simp only [Member.ofHalt, *]

theorem getElem?_turn (in_range : i < g.members.length) (j : Nat) :
    (g.turn i routine queue).members[j]? =
      if i = j then
        some (.ofHalt (routine.burst g.world g.lock []).world.clock g.pauses
          (routine.burst g.world g.lock []).halt)
      else
        g.members[j]?.map
          (if j ∈ (routine.burst g.world g.lock []).woken then Member.woken else id) := by
  rw [members_turn, List.getElem?_set, length_wakeAll, getElem?_wakeAll, if_pos in_range]

theorem length_turn : (g.turn i routine queue).members.length = g.members.length := by
  rw [members_turn, List.length_set, length_wakeAll]

theorem lock_turn :
    (g.turn i routine queue).lock =
      (routine.burst g.world g.lock []).lock.line i (routine.burst g.world g.lock []).halt := by
  unfold turn
  simp only
  split <;> simp only [Lock.line, *]

theorem queue_turn :
    (g.turn i routine queue).queue = queue ++ (routine.burst g.world g.lock []).woken ++
      match (routine.burst g.world g.lock []).halt with
      | .paused 0 _ => [i]
      | _ => [] := by
  unfold turn
  simp only
  split <;> simp [*]

end

/-- The clock moves to an instant, and those whose pauses end there go on. -/
def wakeAt (g : Group σ α) (time : Nat) (w : World σ) : Group σ α :=
  { g with
    world := w, queue := wakingAt g.members time
    members := (wakingAt g.members time).foldl wake g.members }

theorem length_wakeAt (g : Group σ α) (time : Nat) (w : World σ) :
    (g.wakeAt time w).members.length = g.members.length :=
  length_wakeAll g.members _

/-- What becomes of a group next: how it goes on, or how it ends. -/
inductive Steps (g : Group σ α) : Group σ α ⊕ Close α × World σ → Prop where
  | turn {i : Nat} {queue : List Nat} {routine : Routine σ α} (queue_eq : g.queue = i :: queue)
      (at_i : g.members[i]? = some (.ready routine)) : Steps g (.inl (g.turn i routine queue))
  | skip {i : Nat} {queue : List Nat} (queue_eq : g.queue = i :: queue)
      (unready : ∀ routine, g.members[i]? ≠ some (.ready routine)) :
      Steps g (.inl { g with queue })
  | wake {time : Nat} {w : World σ} (idle : g.queue = []) (unanswered : answers? g.members = none)
      (next : nextWake? g.members = some time) (reached : g.world.wait time = (true, w)) :
      Steps g (.inl (g.wakeAt time w))
  | ended {values : List α} (idle : g.queue = []) (answered : answers? g.members = some values) :
      Steps g (.inr (.ended values, g.world))
  | stuck (idle : g.queue = []) (unanswered : answers? g.members = none)
      (endless : nextWake? g.members = none) : Steps g (.inr (.unfinished, g.world))
  | cut {time : Nat} {w : World σ} (idle : g.queue = []) (next : nextWake? g.members = some time)
      (missed : g.world.wait time = (false, w)) : Steps g (.inr (.cut, w))

/-- A run is one step after the other. -/
theorem run_steps (g : Group σ α) :
    ∃ next, Steps g next ∧ ∀ bound, g.run (bound + 1) = next.elim (·.run bound) id := by
  cases hqueue : g.queue with
  | cons i queue =>
      by_cases hready : ∃ routine, g.members[i]? = some (.ready routine)
      · obtain ⟨routine, at_i⟩ := hready
        exact ⟨_, .turn hqueue at_i, fun bound => by simp only [run, hqueue, at_i, Sum.elim_inl]⟩
      · have unready : ∀ routine, g.members[i]? ≠ some (.ready routine) := not_exists.mp hready
        refine ⟨_, .skip hqueue unready, fun bound => ?_⟩
        simp only [run, hqueue, Sum.elim_inl]
  | nil =>
      cases hanswers : answers? g.members with
      | some values =>
          exact ⟨_, .ended hqueue hanswers,
            fun bound => by simp only [run, hqueue, hanswers, Sum.elim_inr, id]⟩
      | none =>
          cases hnext : nextWake? g.members with
          | none =>
              exact ⟨_, .stuck hqueue hanswers hnext,
                fun bound => by simp only [run, hqueue, hanswers, hnext, Sum.elim_inr, id]⟩
          | some time =>
              cases hwait : g.world.wait time with
              | mk reached w =>
                  cases reached with
                  | false =>
                      refine ⟨_, .cut hqueue hnext hwait, fun bound => ?_⟩
                      simp only [run, hqueue, hanswers, hnext, hwait, Sum.elim_inr, id]
                  | true =>
                      refine ⟨_, .wake hqueue hanswers hnext hwait, fun bound => ?_⟩
                      simp only [run, hqueue, hanswers, hnext, hwait, Sum.elim_inl, wakeAt]

theorem members_of_answers {members : List (Member σ α)} {values : List α}
    (h : answers? members = some values) : members = values.map .ended := by
  induction members generalizing values with
  | nil =>
      cases h
      rfl
  | cons m rest ih =>
      cases m with
      | ended value =>
          obtain ⟨others, hothers, rfl⟩ := Option.map_eq_some_iff.mp h
          rw [ih hothers, List.map_cons]
      | ready routine | paused wake order routine | blocked routine => cases h

/-- Each member has its answer. -/
theorem length_of_run (bound : Nat) {g : Group σ α} {values : List α} {later : World σ}
    (hrun : g.run bound = (.ended values, later)) : values.length = g.members.length := by
  induction bound generalizing g with
  | zero => cases hrun
  | succ bound ih =>
      obtain ⟨next, hsteps, hnext⟩ := g.run_steps
      rw [hnext] at hrun
      cases hsteps with
      | turn => rw [ih hrun, length_turn]
      | @skip _ queue => exact ih (g := { g with queue }) hrun
      | wake => rw [ih hrun, length_wakeAt]
      | ended _ answered =>
          cases hrun
          rw [members_of_answers answered, List.length_map]
      | stuck | cut => cases hrun

end Group

end BrowserSteps.Routine
