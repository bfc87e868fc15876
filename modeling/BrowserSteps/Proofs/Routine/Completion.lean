import BrowserSteps.Proofs.Routine.Custody
import Mathlib.Data.List.ReduceOption
import Mathlib.Logic.Hydra

/-!
Several orderly routines come to an end. Whoever of them holds the lock can go on, so that nobody
waits for it in vain; and every turn leaves less to do of the routine that had it, so that there are
only so many turns.
-/

namespace BrowserSteps.Routine

variable {σ α β : Type}

/-- A member fits the lock: it waits in line if and only if it is blocked. -/
def Member.Orderly (lock : Lock) (holder : Option Nat) (i : Nat) : Member σ α → Prop
  | .ready routine | .paused _ _ routine =>
    i ∉ lock.waiting ∧ routine.Orderly (holder = some i)
  | .blocked routine => i ∈ lock.waiting ∧ routine.Orderly true
  | .ended _ => i ∉ lock.waiting ∧ holder ≠ some i

theorem Member.Orderly.congr {m : Member σ α} {lock lock' : Lock} {holder holder' : Option Nat}
    {i : Nat} (h : m.Orderly lock holder i) (waits : i ∈ lock'.waiting ↔ i ∈ lock.waiting)
    (holds : holder' = some i ↔ holder = some i) : m.Orderly lock' holder' i := by
  have hdecide : decide (holder' = some i) = decide (holder = some i) := decide_eq_decide.mpr holds
  cases m with
  | ready routine | paused _ _ routine => exact ⟨mt waits.mp h.1, hdecide ▸ h.2⟩
  | blocked routine => exact ⟨waits.mpr h.1, h.2⟩
  | ended value => exact ⟨mt waits.mp h.1, mt holds.mp h.2⟩

/-- Those who are let in hold the lock, and the others stand as before. -/
theorem Burst.Passes.member {lock : Lock} {holder after : Option Nat} {woken letIn : List Nat}
    {i j : Nat} {b : Burst σ α} (h : b.Passes lock holder woken i after letIn) (other : j ≠ i)
    (nodup : lock.waiting.Nodup) {m : Member σ α} (hm : m.Orderly lock holder j) :
    ((if j ∈ letIn then Member.woken else id) m).Orderly b.lock after j := by
  rw [h.waiting_eq] at nodup
  have holds := h.others j other
  split
  next chosen =>
    have waited : j ∈ lock.waiting := by
      rw [h.waiting_eq]
      exact List.mem_append_left _ chosen
    have onward : j ∉ b.lock.waiting := fun again =>
      (List.nodup_append.mp nodup).2.2 j chosen j again rfl
    have taken : after = some j := holds.mpr (.inr chosen)
    cases m with
    | blocked routine => exact ⟨onward, by simpa [taken] using hm.2⟩
    | ready routine | paused _ _ routine | ended value => exact absurd waited hm.1
  next passed =>
    refine hm.congr ?_ ?_
    · rw [h.waiting_eq, List.mem_append, or_iff_right passed]
    · rw [holds, or_iff_left passed]

/-- What is left of a member after its turn fits the lock, in which it may stand last in line. -/
theorem Halt.Orderly.ofHalt {halt : Halt σ α} {lock : Lock} {holder : Option Nat} {i : Nat}
    (h : halt.Orderly holder i) (heldBy : lock.HeldBy holder) (aside : i ∉ lock.waiting)
    (clock order : Nat) :
    (lock.line i halt).HeldBy holder ∧
      (Member.ofHalt clock order halt).Orderly (lock.line i halt) holder i := by
  cases halt with
  | ended value => exact ⟨heldBy, aside, h⟩
  | paused micros next => cases micros <;> exact ⟨heldBy, aside, h⟩
  | blocked next =>
      obtain ⟨free, taken, onward⟩ := h
      refine ⟨⟨heldBy.held, fun nobody => absurd nobody taken, ?_, ?_⟩, ?_, onward⟩
      · refine List.nodup_append.mpr ⟨heldBy.nodup, List.nodup_singleton i, ?_⟩
        rintro j waits k last rfl
        exact aside (List.mem_singleton.mp last ▸ waits)
      · simpa [Lock.line, or_imp, forall_and] using ⟨heldBy.apart, free⟩
      · simp [Lock.line]

theorem Lock.mem_line_of_ne {lock : Lock} {halt : Halt σ α} {i j : Nat} (other : j ≠ i) :
    j ∈ (lock.line i halt).waiting ↔ j ∈ lock.waiting := by
  cases halt <;> simp [Lock.line, other]

namespace Group

/-- Every member fits the lock, and those who are ready have a turn to come. -/
structure Orderly (g : Group σ α) (holder : Option Nat) : Prop where
  heldBy : g.lock.HeldBy holder
  member : ∀ (i : Nat) (m : Member σ α), g.members[i]? = some m → m.Orderly g.lock holder i
  inside : ∀ i, holder = some i ∨ i ∈ g.lock.waiting → i < g.members.length
  queued : ∀ i routine, g.members[i]? = some (.ready routine) → i ∈ g.queue

theorem orderly_start {routines : List (Routine σ α)} (h : ∀ r ∈ routines, r.Orderly false)
    (w : World σ) : (start routines w).Orderly none := by
  have hready {i : Nat} {m : Member σ α} (at_i : (start routines w).members[i]? = some m) :
      ∃ r, routines[i]? = some r ∧ m = .ready r := by
    simp only [start, List.getElem?_map] at at_i
    obtain ⟨r, r_at_i, rfl⟩ := Option.map_eq_some_iff.mp at_i
    exact ⟨r, r_at_i, rfl⟩
  refine ⟨⟨rfl, fun _ => rfl, List.nodup_nil, nofun⟩, ?_, ?_, ?_⟩
  · intro i m at_i
    obtain ⟨r, r_at_i, rfl⟩ := hready at_i
    exact ⟨List.not_mem_nil, h r (List.mem_of_getElem? r_at_i)⟩
  · rintro i (impossible | impossible) <;> cases impossible
  · intro i routine at_i
    obtain ⟨r, r_at_i, -⟩ := hready at_i
    exact List.mem_range.mpr (List.getElem?_eq_some_iff.mp r_at_i).1

section

variable {g : Group σ α} {holder : Option Nat}

/-- After the turn of a member the others fit the lock as it was passed on. -/
theorem Orderly.of_passes (h : g.Orderly holder) {i : Nat} {queue : List Nat}
    {routine : Routine σ α} (queue_eq : g.queue = i :: queue)
    (at_i : g.members[i]? = some (.ready routine)) {after : Option Nat} {letIn : List Nat}
    (passes : (routine.burst g.world g.lock []).Passes g.lock holder [] i after letIn) :
    (g.turn i routine queue).Orderly after := by
  obtain ⟨aside, -⟩ := h.member i _ at_i
  have in_range : i < g.members.length := (List.getElem?_eq_some_iff.mp at_i).1
  have hwoken : (routine.burst g.world g.lock []).woken = letIn := passes.woken_eq
  have still_aside : i ∉ (routine.burst g.world g.lock []).lock.waiting := by
    rw [passes.waiting_eq, List.mem_append, not_or] at aside
    exact aside.2
  obtain ⟨hline, hself⟩ := passes.halt.ofHalt passes.heldBy still_aside
    (routine.burst g.world g.lock []).world.clock g.pauses
  rw [← lock_turn g i routine queue] at hline hself
  refine ⟨hline, ?_, ?_, ?_⟩
  · intro j m at_j
    rw [getElem?_turn g i routine queue in_range] at at_j
    split at at_j
    next same =>
      cases same
      cases at_j
      exact hself
    next other =>
      obtain ⟨old, old_at_j, rfl⟩ := Option.map_eq_some_iff.mp at_j
      have hold := passes.member (Ne.symm other) h.heldBy.nodup (h.member j old old_at_j)
      rw [hwoken, lock_turn]
      exact hold.congr (Lock.mem_line_of_ne (Ne.symm other)) Iff.rfl
  · intro j hj
    by_cases other : j = i
    · rwa [other, length_turn]
    · rw [length_turn]
      apply h.inside
      rw [lock_turn, Lock.mem_line_of_ne other, passes.others j other] at hj
      rw [passes.waiting_eq, List.mem_append]
      exact or_assoc.mp hj
  · intro j next at_j
    rw [queue_turn, hwoken]
    rw [getElem?_turn g i routine queue in_range] at at_j
    split at at_j
    next same =>
      cases same
      cases hhalt : (routine.burst g.world g.lock []).halt with
      | ended value | blocked rest => simp [hhalt, Member.ofHalt] at at_j
      | paused micros rest =>
          cases micros with
          | zero => simp
          | succ micros => simp [hhalt, Member.ofHalt] at at_j
    next other =>
      obtain ⟨old, old_at_j, ready⟩ := Option.map_eq_some_iff.mp at_j
      rw [hwoken] at ready
      split at ready
      next chosen => simp [chosen]
      next passed =>
        obtain rfl : old = .ready next := ready
        have hqueued := h.queued j next old_at_j
        rw [queue_eq, List.mem_cons, or_iff_right (Ne.symm other)] at hqueued
        simp [hqueued]

theorem Orderly.turn (h : g.Orderly holder) {i : Nat} {queue : List Nat} {routine : Routine σ α}
    (queue_eq : g.queue = i :: queue) (at_i : g.members[i]? = some (.ready routine)) :
    ∃ after, (g.turn i routine queue).Orderly after := by
  obtain ⟨aside, orderly⟩ := h.member i _ at_i
  obtain ⟨after, letIn, passes⟩ := orderly.burst h.heldBy aside g.world []
  exact ⟨after, h.of_passes queue_eq at_i passes⟩

theorem Orderly.skip (h : g.Orderly holder) {i : Nat} {queue : List Nat}
    (queue_eq : g.queue = i :: queue)
    (unready : ∀ routine, g.members[i]? ≠ some (.ready routine)) :
    Orderly { g with queue } holder := by
  refine ⟨h.heldBy, h.member, h.inside, fun j routine at_j => ?_⟩
  have hqueued := h.queued j routine at_j
  rw [queue_eq, List.mem_cons] at hqueued
  refine hqueued.resolve_left ?_
  rintro rfl
  exact unready routine at_j

theorem Orderly.wakeAt (h : g.Orderly holder) (idle : g.queue = []) (time : Nat) (w : World σ) :
    (g.wakeAt time w).Orderly holder := by
  refine ⟨h.heldBy, ?_, ?_, ?_⟩
  · intro j m at_j
    simp only [Group.wakeAt, getElem?_wakeAll] at at_j
    obtain ⟨old, old_at_j, rfl⟩ := Option.map_eq_some_iff.mp at_j
    have hold := h.member j old old_at_j
    split
    next waking =>
      obtain ⟨order, routine, paused⟩ := mem_wakingAt.mp waking
      obtain rfl : old = .paused time order routine := by simpa [old_at_j] using paused
      exact hold
    next => exact hold
  · intro j hj
    rw [length_wakeAt]
    exact h.inside j hj
  · intro j routine at_j
    simp only [Group.wakeAt, getElem?_wakeAll] at at_j
    obtain ⟨old, old_at_j, ready⟩ := Option.map_eq_some_iff.mp at_j
    split at ready
    next waking => exact waking
    next =>
      obtain rfl : old = .ready routine := ready
      have hqueued := h.queued j routine old_at_j
      rw [idle] at hqueued
      cases hqueued

/-- Among orderly members somebody can go on until all have ended. -/
theorem Orderly.not_stuck (h : g.Orderly holder) (idle : g.queue = [])
    (unanswered : answers? g.members = none) : nextWake? g.members ≠ none := by
  intro endless
  have unready {i : Nat} {routine : Routine σ α} : g.members[i]? ≠ some (.ready routine) := by
    intro at_i
    have hqueued := h.queued i routine at_i
    rw [idle] at hqueued
    cases hqueued
  have unpaused {i time order : Nat} {routine : Routine σ α} :
      g.members[i]? ≠ some (.paused time order routine) :=
    fun paused => nextWake_ne_none paused endless
  -- Whoever waits for the lock waits for a holder that could go on.
  have unblocked {i : Nat} {routine : Routine σ α} : g.members[i]? ≠ some (.blocked routine) := by
    intro at_i
    have waits := (h.member i _ at_i).1
    cases hholder : holder with
    | none => simp [h.heldBy.nobody hholder] at waits
    | some j =>
        obtain ⟨m, at_j⟩ : ∃ m, g.members[j]? = some m :=
          ⟨_, List.getElem?_eq_getElem (h.inside j (.inl hholder))⟩
        have horderly := h.member j m at_j
        cases m with
        | ready routine => exact unready at_j
        | paused time order routine => exact unpaused at_j
        | blocked routine => exact h.heldBy.apart j horderly.1 hholder
        | ended value => exact horderly.2 hholder
  obtain ⟨m, member, unended⟩ := exists_unended unanswered
  obtain ⟨i, at_i⟩ := List.mem_iff_getElem?.mp member
  cases m with
  | ready routine => exact unready at_i
  | paused time order routine => exact unpaused at_i
  | blocked routine => exact unblocked at_i
  | ended value => exact unended value rfl

end

end Group

/-- What can be left of a routine after its first instruction. -/
inductive Left : Routine σ α → Routine σ α → Prop where
  | act (change : World σ → Change σ) (next : World σ → Routine σ α) (w : World σ) :
      Left (next w) (.act change next)
  | pause (micros : Nat) (next : Routine σ α) : Left next (.pause micros next)
  | acquire (next : Routine σ α) : Left next (.acquire next)
  | release (next : Routine σ α) : Left next (.release next)

theorem left_wf : WellFounded (Left (σ := σ) (α := α)) := by
  refine ⟨fun r => ?_⟩
  induction r with
  | done value => exact ⟨_, nofun⟩
  | act change next ih => exact ⟨_, fun _ h => by cases h with | act _ _ w => exact ih w⟩
  | pause micros next ih | acquire next ih | release next ih =>
      exact ⟨_, fun _ h => by cases h; exact ih⟩

/-- What a member has left to do. -/
def Member.left? : Member σ α → Option (Routine σ α)
  | .ready routine | .paused _ _ routine | .blocked routine => some routine
  | .ended _ => none

theorem Member.left_woken (m : Member σ α) : m.woken.left? = m.left? := by
  cases m <;> rfl

/-- A turn leaves less to do. -/
theorem left_burst (r : Routine σ α) (w : World σ) (lock : Lock) (woken : List Nat)
    (clock order : Nat) {next : Routine σ α}
    (hnext : (Member.ofHalt clock order (r.burst w lock woken).halt).left? = some next) :
    Relation.TransGen Left next r := by
  induction r generalizing w lock woken with
  | done value => cases hnext
  | act change rest ih => exact .tail (ih w _ _ _ hnext) (.act change rest w)
  | pause micros rest ih =>
      obtain rfl : rest = next := by cases micros <;> exact Option.some.inj hnext
      exact .single (.pause micros _)
  | acquire rest ih =>
      simp only [Routine.burst] at hnext
      split at hnext
      · cases hnext
        exact .single (.acquire _)
      · exact .tail (ih _ _ _ hnext) (.acquire rest)
  | release rest ih =>
      simp only [Routine.burst] at hnext
      split at hnext <;> exact .tail (ih _ _ _ hnext) (.release rest)

/-- Nothing or something smaller in the place of an entry makes a list of entries smaller. -/
theorem cutExpand_set {γ : Type} {R : γ → γ → Prop} {entries : List (Option γ)} {i : Nat} {a : γ}
    (at_i : entries[i]? = some (some a)) {o : Option γ} (smaller : ∀ b ∈ o, R b a) :
    Relation.CutExpand R (entries.set i o).reduceOption entries.reduceOption := by
  induction entries generalizing i with
  | nil => cases at_i
  | cons entry rest ih =>
      cases i with
      | zero =>
          obtain rfl : entry = some a := Option.some.inj at_i
          refine ⟨(o.toList : List γ), a, fun b member => smaller b (by simpa using member), ?_⟩
          rw [List.set_cons_zero, List.reduceOption_cons_of_some, ← Multiset.cons_coe,
            ← Multiset.singleton_add, add_comm]
          cases o with
          | none => exact (add_zero _).symm
          | some b =>
              rw [List.reduceOption_cons_of_some, ← Multiset.cons_coe, ← Multiset.singleton_add,
                add_assoc, add_comm (↑rest.reduceOption : Multiset γ)]
              rfl
      | succ i =>
          cases entry with
          | none => exact ih at_i
          | some b =>
              simp only [List.set_cons_succ, List.reduceOption_cons_of_some, ← Multiset.cons_coe,
                ← Multiset.singleton_add]
              exact (Relation.cutExpand_add_left {b}).mpr (ih at_i)

namespace Group

/-- All that the members have left to do. -/
def left (g : Group σ α) : Multiset (Routine σ α) := (g.members.map Member.left?).reduceOption

/-- How many entries of the queue may be passed over before a turn, counting the next moment at
which somebody wakes. -/
def delay (g : Group σ α) : Nat :=
  match g.queue with
  | [] => 1
  | i :: queue =>
    match g.members[i]? with
    | some (.ready _) => 0
    | _ => queue.length + 2

theorem left_wakeAll (members : List (Member σ α)) (waking : List Nat) :
    (waking.foldl wake members).map Member.left? = members.map Member.left? := by
  refine List.ext_getElem? fun i => ?_
  rw [List.getElem?_map, List.getElem?_map, getElem?_wakeAll, Option.map_map]
  refine congrArg (Option.map · _) (funext fun m => ?_)
  simp only [Function.comp]
  split
  · exact m.left_woken
  · rfl

theorem cutExpand_turn {g : Group σ α} {i : Nat} {routine : Routine σ α}
    (at_i : g.members[i]? = some (.ready routine)) (queue : List Nat) :
    Relation.CutExpand (Relation.TransGen Left) (g.turn i routine queue).left g.left := by
  rw [left, members_turn, List.map_set, left_wakeAll]
  refine cutExpand_set (a := routine) ?_ fun next hnext => ?_
  · rw [List.getElem?_map, at_i]
    rfl
  · exact left_burst routine g.world g.lock [] _ _ hnext

/-- A group is nearer to its end if less is left to do, or as much with a shorter delay. -/
def Nearer (g' g : Group σ α) : Prop :=
  Prod.Lex (Relation.CutExpand (Relation.TransGen Left)) (· < ·) (g'.left, g'.delay)
    (g.left, g.delay)

theorem nearer_wf : WellFounded (Nearer (σ := σ) (α := α)) :=
  InvImage.wf (fun g : Group σ α => (g.left, g.delay))
    (WellFounded.prod_lex left_wf.transGen.cutExpand Nat.lt_wfRel.wf)

theorem delay_le (g : Group σ α) : g.delay ≤ g.queue.length + 1 := by
  unfold delay
  split
  next idle => simp [idle]
  next i queue busy =>
    rw [busy, List.length_cons]
    split <;> omega

theorem delay_of_unready {g : Group σ α} {i : Nat} {queue : List Nat} (busy : g.queue = i :: queue)
    (unready : ∀ routine, g.members[i]? ≠ some (.ready routine)) : g.delay = queue.length + 2 := by
  simp only [delay, busy]

theorem delay_wakeAt {g : Group σ α} {time : Nat} (next : nextWake? g.members = some time)
    (w : World σ) : (g.wakeAt time w).delay = 0 := by
  obtain ⟨i, order, routine, paused⟩ := paused_of_nextWake next
  have waking := mem_wakingAt.mpr ⟨order, routine, paused⟩
  unfold delay
  split
  next nobody =>
    have hnone : wakingAt g.members time = [] := nobody
    simp [hnone] at waking
  next first rest awake =>
    have hfirst : first ∈ wakingAt g.members time := by
      rw [show wakingAt g.members time = first :: rest from awake]
      exact List.mem_cons_self
    obtain ⟨order, routine, at_first⟩ := mem_wakingAt.mp hfirst
    have ready : (g.wakeAt time w).members[first]? = some (.ready routine) := by
      rw [wakeAt, getElem?_wakeAll, at_first, if_pos hfirst]
      rfl
    simp only [ready]

/-- Orderly members come to an end, given enough turns. -/
theorem Orderly.completes {g : Group σ α} {holder : Option Nat} (h : g.Orderly holder) :
    ∃ enough close, close.1 ≠ .unfinished ∧ ∀ bound ≥ enough, g.run bound = close := by
  -- A turn leaves less to do, and everything else brings the next turn nearer.
  induction g using nearer_wf.induction generalizing holder with
  | _ g ih =>
      obtain ⟨next, hsteps, hnext⟩ := g.run_steps
      have honward {g' : Group σ α} {holder' : Option Nat} (nearer : Nearer g' g)
          (orderly : g'.Orderly holder') (hrun : ∀ bound, g.run (bound + 1) = g'.run bound) :
          ∃ enough close, close.1 ≠ .unfinished ∧ ∀ bound ≥ enough, g.run bound = close := by
        obtain ⟨enough, close, finished, hclose⟩ := ih g' nearer orderly
        refine ⟨enough + 1, close, finished, fun bound hbound => ?_⟩
        obtain ⟨fewer, rfl⟩ := Nat.exists_eq_add_of_le' hbound
        exact (hrun _).trans (hclose _ (Nat.le_add_left enough fewer))
      have hcloses {close : Close α × World σ} (finished : close.1 ≠ .unfinished)
          (hrun : ∀ bound, g.run (bound + 1) = close) :
          ∃ enough close, close.1 ≠ .unfinished ∧ ∀ bound ≥ enough, g.run bound = close := by
        refine ⟨1, close, finished, fun bound hbound => ?_⟩
        obtain ⟨fewer, rfl⟩ := Nat.exists_eq_add_of_le' hbound
        exact hrun fewer
      cases hsteps with
      | turn queue_eq at_i =>
          obtain ⟨after, orderly⟩ := h.turn queue_eq at_i
          exact honward (.left _ _ (cutExpand_turn at_i _)) orderly hnext
      | @skip _ queue queue_eq unready =>
          have nearer : Nearer { g with queue } g := by
            refine .right _ ?_
            rw [delay_of_unready queue_eq unready]
            exact Nat.lt_succ_of_le (delay_le _)
          exact honward nearer (h.skip queue_eq unready) hnext
      | wake idle unanswered next reached =>
          refine honward (Prod.lex_def.mpr (.inr ⟨?_, ?_⟩)) (h.wakeAt idle _ _) hnext
          · simp only [left, Group.wakeAt, left_wakeAll]
          · rw [delay_wakeAt next, delay, idle]
            exact Nat.zero_lt_one
      | ended idle answered => exact hcloses (by simp) hnext
      | cut idle next missed => exact hcloses (by simp) hnext
      | stuck idle unanswered endless => exact absurd endless (h.not_stuck idle unanswered)

end Group

/-- Orderly routines that begin at once come to an end, given enough turns. -/
theorem runTogether_completes {routines : List (Routine σ α)} (h : ∀ r ∈ routines, r.Orderly false)
    (w : World σ) :
    ∃ enough close, close.1 ≠ .unfinished ∧
      ∀ bound ≥ enough, runTogether bound routines w = close :=
  (Group.orderly_start h w).completes

end BrowserSteps.Routine
