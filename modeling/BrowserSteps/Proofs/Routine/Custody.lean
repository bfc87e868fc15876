import BrowserSteps.Proofs.Routine.Clock

/-!
Routines and the lock. A routine is orderly if it takes the lock only while it does not hold it,
gives it back only while it holds it, and ends without it. What the others may do to the world
depends on that: whoever holds the lock can bear less than those who do not, and something is true
whenever nobody holds it. A routine that keeps to such a custody can rely on it in turn, and one
lemma says what its turn among others makes of the world and of the lock.
-/

namespace BrowserSteps.Routine

variable {σ α β : Type}

/-- What a routine that does or does not hold the lock may still do with it. -/
def Orderly : Routine σ α → Bool → Prop
  | .done _, holds => holds = false
  | .act _ next, holds => ∀ w, (next w).Orderly holds
  | .pause _ next, holds => next.Orderly holds
  | .acquire next, holds => holds = false ∧ next.Orderly true
  | .release next, holds => holds = true ∧ next.Orderly false

/-- A routine that leaves the lock alone. -/
def Lockless : Routine σ α → Prop
  | .done _ => True
  | .act _ next => ∀ w, (next w).Lockless
  | .pause _ next => next.Lockless
  | .acquire _ | .release _ => False

theorem Orderly.bind {f : α → Routine σ β} (hf : ∀ value, (f value).Orderly false)
    {r : Routine σ α} {holds : Bool} (h : r.Orderly holds) : (r.bind f).Orderly holds := by
  induction r generalizing holds with
  | done value =>
      obtain rfl : holds = false := h
      exact hf value
  | act change next ih => exact fun w => ih w (h w)
  | pause micros next ih => exact ih h
  | acquire next ih | release next ih => exact ⟨h.1, ih h.2⟩

theorem Lockless.orderly_bind {f : α → Routine σ β} {holds : Bool}
    (hf : ∀ value, (f value).Orderly holds) {r : Routine σ α} (h : r.Lockless) :
    (r.bind f).Orderly holds := by
  induction r with
  | done value => exact hf value
  | act change next ih => exact fun w => ih w (h w)
  | pause micros next ih => exact ih h
  | acquire next ih | release next ih => exact h.elim

theorem Lockless.bind {f : α → Routine σ β} (hf : ∀ value, (f value).Lockless) {r : Routine σ α}
    (h : r.Lockless) : (r.bind f).Lockless := by
  induction r with
  | done value => exact hf value
  | act change next ih => exact fun w => ih w (h w)
  | pause micros next ih => exact ih h
  | acquire next ih | release next ih => exact h.elim

theorem Lockless.orderly {r : Routine σ α} (h : r.Lockless) : r.Orderly false := by
  induction r with
  | done value => rfl
  | act change next ih => exact fun w => ih w (h w)
  | pause micros next ih => exact ih h
  | acquire next ih | release next ih => exact h.elim

theorem Lockless.orderly_locked {body : Routine σ α} (h : body.Lockless) :
    body.locked.Orderly false := by
  refine ⟨rfl, h.orderly_bind fun value => ?_⟩
  exact ⟨rfl, rfl⟩

/-- The lock is held by a member, or by nobody; in the latter case nobody waits for it. -/
structure Lock.HeldBy (lock : Lock) (holder : Option Nat) : Prop where
  held : lock.held = holder.isSome
  nobody : holder = none → lock.waiting = []
  nodup : lock.waiting.Nodup
  apart : ∀ i ∈ lock.waiting, holder ≠ some i

/-- What is left of a member that stopped for now fits the lock. -/
def Halt.Orderly (holder : Option Nat) (i : Nat) : Halt σ α → Prop
  | .ended _ => holder ≠ some i
  | .paused _ next => next.Orderly (holder = some i)
  | .blocked next => holder ≠ some i ∧ holder ≠ none ∧ next.Orderly true

/-- What the turn of a member makes of the lock: it goes to those who were let in, in their order,
and the others wait as before. -/
structure Burst.Passes (lock : Lock) (holder : Option Nat) (woken : List Nat) (i : Nat)
    (b : Burst σ α) (after : Option Nat) (letIn : List Nat) : Prop where
  heldBy : b.lock.HeldBy after
  halt : b.halt.Orderly after i
  woken_eq : b.woken = woken ++ letIn
  waiting_eq : lock.waiting = letIn ++ b.lock.waiting
  others : ∀ j, j ≠ i → (after = some j ↔ holder = some j ∨ j ∈ letIn)

/-- What may happen to the world while a routine waits, with or without the lock. What a routine does
while it holds the lock has to be borne by those who do not, and what it does without the lock by
whoever holds it. -/
structure Custody (σ : Type) where
  rely : Bool → World σ → World σ → Prop
  /-- What is true whenever nobody holds the lock. -/
  free : World σ → Prop
  /-- Whether the lock is given back before time passes. -/
  brief : Prop
  rely_refl : ∀ holds w, rely holds w w
  rely_trans : ∀ {holds w later last},
    rely holds w later → rely holds later last → rely holds w last
  rely_passTo : ∀ holds {w : World σ} {time}, w.clock < time → rely holds w (w.passTo time)
  rely_of_holds : ∀ {w later}, rely true w later → rely false w later
  free_of_rely : ∀ {w later}, rely true w later → free w → free later

namespace Custody

variable (t : Custody σ)

/-- In which worlds somebody who waits for the lock may get it. -/
def Grants (w later : World σ) : Prop :=
  t.rely false w later ∧ t.free later ∧ (t.brief → later.clock = w.clock)

/-- In which worlds a pause may end. -/
def Ends (holds : Bool) (micros : Nat) (w later : World σ) : Prop :=
  t.rely holds w later ∧ later.clock = w.clock + micros

theorem bears_apply {holds : Bool} {w later : World σ} (h : t.rely (!holds) w later) :
    t.rely false w later := by
  cases holds with
  | true => exact h
  | false => exact t.rely_of_holds h

theorem rely_wait (holds : Bool) (w : World σ) (micros : Nat) :
    t.rely holds w (w.passTo (w.clock + (micros + 1))) :=
  t.rely_passTo holds (Nat.lt_add_of_pos_right (Nat.succ_pos micros))

/-- The custody that bears everything. -/
def lax (σ : Type) : Custody σ where
  rely _ _ _ := True
  free _ := True
  brief := False
  rely_refl _ _ := trivial
  rely_trans _ _ := trivial
  rely_passTo _ _ _ _ := trivial
  rely_of_holds _ := trivial
  free_of_rely _ _ := trivial

end Custody

/-- From this world on a routine that does or does not hold the lock keeps to the custody, and ends
as promised. -/
def Keeps (t : Custody σ) (post : α → Bool → World σ → Prop) :
    Routine σ α → Bool → World σ → Prop
  | .done value, holds, w => post value holds w
  | .act change next, holds, w =>
    t.rely (!holds) w (w.apply (change w)) ∧ (next w).Keeps t post holds (w.apply (change w))
  | .pause micros next, holds, w =>
    (t.brief → holds = true → micros = 0) ∧
      ∀ later, t.Ends holds micros w later → next.Keeps t post holds later
  | .acquire next, holds, w =>
    holds = false ∧ ∀ later, t.Grants w later → next.Keeps t post true later
  | .release next, holds, w => holds = true ∧ t.free w ∧ next.Keeps t post false w

theorem Orderly.keeps {r : Routine σ α} {holds : Bool} (h : r.Orderly holds) (w : World σ) :
    r.Keeps (.lax σ) (fun _ holds _ => holds = false) holds w := by
  induction r generalizing holds w with
  | done value => exact h
  | act change next ih => exact ⟨trivial, ih w (h w) _⟩
  | pause micros next ih => exact ⟨False.elim, fun later _ => ih h later⟩
  | acquire next ih => exact ⟨h.1, fun later _ => ih h.2 later⟩
  | release next ih => exact ⟨h.1, trivial, ih h.2 w⟩

section

variable {t : Custody σ} {post : α → Bool → World σ → Prop}

theorem Keeps.bind {last : β → Bool → World σ → Prop} {f : α → Routine σ β} {r : Routine σ α}
    {holds : Bool} {w : World σ} (h : r.Keeps t post holds w)
    (hf : ∀ value holds later, post value holds later → (f value).Keeps t last holds later) :
    (r.bind f).Keeps t last holds w := by
  induction r generalizing holds w with
  | done value => exact hf value holds w h
  | act change next ih => exact ⟨h.1, ih w h.2⟩
  | pause micros next ih => exact ⟨h.1, fun later hlater => ih (h.2 later hlater)⟩
  | acquire next ih => exact ⟨h.1, fun later hlater => ih (h.2 later hlater)⟩
  | release next ih => exact ⟨h.1, h.2.1, ih h.2.2⟩

theorem Keeps.of_post {less : α → Bool → World σ → Prop} {r : Routine σ α} {holds : Bool}
    {w : World σ} (h : r.Keeps t post holds w)
    (hless : ∀ value holds later, post value holds later → less value holds later) :
    r.Keeps t less holds w := by
  induction r generalizing holds w with
  | done value => exact hless value holds w h
  | act change next ih => exact ⟨h.1, ih w h.2⟩
  | pause micros next ih => exact ⟨h.1, fun later hlater => ih (h.2 later hlater)⟩
  | acquire next ih => exact ⟨h.1, fun later hlater => ih (h.2 later hlater)⟩
  | release next ih => exact ⟨h.1, h.2.1, ih h.2.2⟩

/-- A routine that runs alone does what others can bear, as long as it is not cut; if it is not cut,
it ends as promised. -/
theorem Keeps.of_runAlone {r : Routine σ α} {holds : Bool} {w : World σ}
    (h : r.Keeps t post holds w) (free : holds = false → t.free w) :
    ∃ last, t.rely false w last ∧ (r.runAlone w).2.shared = last.shared ∧
      ∀ value ∈ (r.runAlone w).1, last = (r.runAlone w).2 ∧
        ∃ holds, post value holds last ∧ (holds = false → t.free last) := by
  induction r generalizing holds w with
  | done value =>
      refine ⟨w, t.rely_refl _ w, rfl, fun answer same => ?_⟩
      cases same
      exact ⟨rfl, holds, h, free⟩
  | act change next ih =>
      have onward (free_hands : holds = false) : t.free (w.apply (change w)) := by
        subst free_hands
        exact t.free_of_rely h.1 (free rfl)
      obtain ⟨last, hlast, hrest⟩ := ih w h.2 onward
      exact ⟨last, t.rely_trans (t.bears_apply h.1) hlast, hrest⟩
  | pause micros next ih =>
      cases micros with
      | zero => exact ih (h.2 w ⟨t.rely_refl holds w, rfl⟩) free
      | succ micros =>
          simp only [runAlone]
          split
          next later reached =>
            rw [World.eq_passTo_of_wait reached]
            have onward (free_hands : holds = false) :=
              t.free_of_rely (t.rely_wait true w micros) (free free_hands)
            obtain ⟨last, hlast, hrest⟩ := ih (h.2 _ ⟨t.rely_wait holds w micros, rfl⟩) onward
            exact ⟨last, t.rely_trans (t.rely_wait false w micros) hlast, hrest⟩
          next later missed =>
            -- What is cut in a pause has let time pass and done nothing else.
            obtain ⟨cut, hcut⟩ := w.wait_eq_passTo (w.clock + (micros + 1))
            rw [missed] at hcut
            exact ⟨w, t.rely_refl _ w, hcut ▸ rfl, by simp⟩
  | acquire next ih =>
      exact ih (h.2 w ⟨t.rely_refl false w, free h.1, fun _ => rfl⟩) (absurd ·.symm Bool.false_ne_true)
  | release next ih => exact ih h.2.2 fun _ => h.2.1

theorem Keeps.of_runToEnd {r : Routine σ α} {holds : Bool} {w : World σ}
    (h : r.Keeps t post holds w) (free : holds = false → t.free w) :
    ∃ holds, post (r.runToEnd w).1 holds (r.runToEnd w).2 := by
  induction r generalizing holds w with
  | done value => exact ⟨holds, h⟩
  | act change next ih =>
      refine ih w h.2 fun free_hands => ?_
      subst free_hands
      exact t.free_of_rely h.1 (free rfl)
  | pause micros next ih =>
      cases micros with
      | zero => exact ih (h.2 w ⟨t.rely_refl holds w, rfl⟩) free
      | succ micros =>
          refine ih (h.2 _ ⟨t.rely_wait holds w micros, rfl⟩) fun free_hands => ?_
          exact t.free_of_rely (t.rely_wait true w micros) (free free_hands)
  | acquire next ih =>
      exact ih (h.2 w ⟨t.rely_refl false w, free h.1, fun _ => rfl⟩) (absurd ·.symm Bool.false_ne_true)
  | release next ih => exact ih h.2.2 fun _ => h.2.1

/-- What is left of a routine that stopped for now keeps to the custody when it goes on. -/
def Halt.Keeps (t : Custody σ) (post : α → Bool → World σ → Prop) (holds : Bool) :
    Halt σ α → World σ → Prop
  | .ended value, w => post value holds w
  | .paused micros next, w =>
    (t.brief → holds = true → micros = 0) ∧
      ∀ later, t.Ends holds micros w later → next.Keeps t post holds later
  | .blocked next, w => ∀ later, t.Grants w later → next.Keeps t post true later

/-- What the turn of a member makes of the world: those without the lock can bear it, and so can
whoever held it before the turn and holds it still. Where the lock is not held, or was handed on, what
is true of the free lock is true. -/
structure Burst.Bears (t : Custody σ) (post : α → Bool → World σ → Prop) (w : World σ)
    (holder : Option Nat) (i : Nat) (b : Burst σ α) (after : Option Nat) (letIn : List Nat) :
    Prop where
  clock : b.world.clock = w.clock
  rely : t.rely false w b.world
  holder : ∀ j, j ≠ i → holder = some j → t.rely true w b.world
  free : (after = none ∨ ∃ j ∈ letIn, after = some j) → t.free b.world
  halt : b.halt.Keeps t post (after = some i) b.world

theorem Burst.Bears.still (halt : Halt σ α) {w : World σ} {lock : Lock} {holder : Option Nat}
    {i : Nat} (h : halt.Keeps t post (holder = some i) w) (free : holder = none → t.free w)
    (woken : List Nat) :
    Burst.Bears t post w holder i ⟨halt, w, lock, woken⟩ holder [] :=
  ⟨rfl, t.rely_refl false w, fun _ _ _ => t.rely_refl true w, by simpa using free, h⟩

end

/-- The turn of an orderly member that keeps to a custody. -/
theorem Keeps.burst {t : Custody σ} {post : α → Bool → World σ → Prop} {r : Routine σ α} {lock : Lock}
    {holder : Option Nat} {i : Nat} {w : World σ} (h : r.Keeps t post (holder = some i) w)
    (orderly : r.Orderly (holder = some i)) (heldBy : lock.HeldBy holder) (aside : i ∉ lock.waiting)
    (free : holder = none → t.free w) (woken : List Nat) :
    ∃ after letIn, (r.burst w lock woken).Passes lock holder woken i after letIn ∧
      (r.burst w lock woken).Bears t post w holder i after letIn := by
  -- In one turn the lock can change hands more than once, so the holder varies with the routine.
  induction r generalizing lock holder w woken with
  | done value =>
      have lets_go : holder ≠ some i := of_decide_eq_false orderly
      exact ⟨holder, [], ⟨heldBy, lets_go, by simp [Routine.burst], rfl, by simp⟩,
        .still (.ended value) h free woken⟩
  | act change next ih =>
      have onward (nobody : holder = none) : t.free (w.apply (change w)) := by
        subst nobody
        exact t.free_of_rely h.1 (free rfl)
      obtain ⟨after, letIn, passes, bears⟩ := ih w h.2 (orderly w) heldBy aside onward woken
      refine ⟨after, letIn, passes, bears.clock, ?_, fun j other held => ?_, bears.free, bears.halt⟩
      · exact t.rely_trans (t.bears_apply h.1) bears.rely
      · have hchange := h.1
        rw [held, decide_eq_false fun same => other (Option.some.inj same)] at hchange
        exact t.rely_trans hchange (bears.holder j other held)
  | pause micros next ih =>
      exact ⟨holder, [], ⟨heldBy, orderly, by simp [Routine.burst], rfl, by simp⟩,
        .still (.paused micros next) h free woken⟩
  | acquire next ih =>
      obtain ⟨empty_hands, hnext⟩ := h
      have horderly := orderly.2
      simp only [Routine.burst]
      split
      next taken =>
        have somebody : holder ≠ none := by
          rw [heldBy.held] at taken
          exact Option.isSome_iff_ne_none.mp taken
        exact ⟨holder, [],
          ⟨heldBy, ⟨of_decide_eq_false empty_hands, somebody, horderly⟩, by simp, rfl, by simp⟩,
          .still (.blocked next) hnext free woken⟩
      next untaken =>
        have nobody : holder = none := by
          rw [heldBy.held] at untaken
          exact Option.not_isSome_iff_eq_none.mp untaken
        have unawaited := heldBy.nobody nobody
        have takes : Lock.HeldBy { lock with held := true } (some i) :=
          ⟨rfl, by simp, heldBy.nodup, by simp [unawaited]⟩
        have granted := hnext w ⟨t.rely_refl false w, free nobody, fun _ => rfl⟩
        obtain ⟨after, letIn, passes, bears⟩ := ih (by simpa using granted)
          (by simpa using horderly) takes aside (absurd · (Option.some_ne_none i)) woken
        refine ⟨after, letIn, ⟨passes.heldBy, passes.halt, passes.woken_eq, passes.waiting_eq, ?_⟩,
          ⟨bears.clock, bears.rely, ?_, bears.free, bears.halt⟩⟩
        · intro j other
          rw [passes.others j other, nobody]
          simp [other.symm]
        · intro j other held
          rw [nobody] at held
          cases held
  | release next ih =>
      obtain ⟨holds, hfree, hnext⟩ := h
      have horderly := orderly.2
      obtain rfl : holder = some i := of_decide_eq_true holds
      simp only [Routine.burst]
      split
      next unawaited =>
        have gives : Lock.HeldBy { lock with held := false } none :=
          ⟨rfl, fun _ => unawaited, heldBy.nodup, by simp⟩
        obtain ⟨after, letIn, passes, bears⟩ := ih (by simpa using hnext) (by simpa using horderly)
          gives aside (fun _ => hfree) woken
        refine ⟨after, letIn, ⟨passes.heldBy, passes.halt, passes.woken_eq, passes.waiting_eq, ?_⟩,
          ⟨bears.clock, bears.rely, ?_, bears.free, bears.halt⟩⟩
        · intro j other
          rw [passes.others j other]
          simp [other.symm]
        · intro j other held
          exact absurd (Option.some.inj held).symm other
      next first rest awaited =>
        have hnodup := heldBy.nodup
        rw [awaited, List.nodup_cons] at hnodup
        rw [awaited, List.mem_cons, not_or] at aside
        have hands : Lock.HeldBy { lock with waiting := rest } (some first) := by
          refine ⟨heldBy.held, by simp, hnodup.2, fun j waits same => ?_⟩
          cases same
          exact hnodup.1 waits
        have not_self : (decide (some first = some i)) = false := by simp [Ne.symm aside.1]
        obtain ⟨after, letIn, passes, bears⟩ := ih (not_self.symm ▸ hnext) (not_self.symm ▸ horderly)
          hands aside.2 (absurd · (Option.some_ne_none first)) (woken ++ [first])
        have handed := bears.holder first (Ne.symm aside.1) rfl
        refine ⟨after, first :: letIn, ⟨passes.heldBy, passes.halt, ?_, ?_, ?_⟩,
          ⟨bears.clock, bears.rely, ?_, fun _ => t.free_of_rely handed hfree, bears.halt⟩⟩
        · rw [passes.woken_eq, List.append_assoc, List.singleton_append]
        · rw [awaited, List.cons_append]
          exact congrArg _ passes.waiting_eq
        · intro j other
          rw [passes.others j other]
          simp [other.symm, eq_comm]
        · intro j other held
          exact absurd (Option.some.inj held).symm other

theorem Orderly.burst {r : Routine σ α} {lock : Lock} {holder : Option Nat} {i : Nat}
    (h : r.Orderly (holder = some i)) (heldBy : lock.HeldBy holder) (aside : i ∉ lock.waiting)
    (w : World σ) (woken : List Nat) :
    ∃ after letIn, (r.burst w lock woken).Passes lock holder woken i after letIn := by
  obtain ⟨after, letIn, passes, -⟩ := (h.keeps w).burst h heldBy aside (fun _ => trivial) woken
  exact ⟨after, letIn, passes⟩

end BrowserSteps.Routine
