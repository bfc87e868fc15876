import BrowserSteps.Proofs.Routine.Sharing

/-!
Routines that do not disturb each other. If all that a routine learns of the world is the clock and
whether a cancellation is due by then, and it gives the lock back before time passes, then its answer
and the instant of its end are determined by the instant at which it begins. Among others of this kind
it answers what it would answer alone.
-/

namespace BrowserSteps

variable {σ α β : Type}

/-- Whether a cancellation will have been requested by an instant, if nobody asks for another. -/
def World.cancelledBy (w : World σ) (time : Nat) : Bool :=
  w.cancelled || (decide (w.clock < time) && w.cancelAt.any (· ≤ time))

/-- A world as it is seen at an instant, if nobody asks for another cancellation. -/
def World.seenAt (w : World σ) (time : Nat) : World σ :=
  { w with clock := time, cancelled := w.cancelledBy time }

/-- What happens to the world while nobody does more than let time pass and keep an invariant of the
shared state. -/
structure World.Passed (inv : σ → Prop) (w later : World σ) : Prop where
  clock : w.clock ≤ later.clock
  deadline : later.deadline = w.deadline
  cancelAt : later.cancelAt = w.cancelAt
  cancelled : later.cancelled = w.cancelledBy later.clock
  shared : inv w.shared → inv later.shared

namespace World

variable {inv : σ → Prop} {w later last : World σ}

theorem Passed.refl (inv : σ → Prop) (w : World σ) : w.Passed inv w := by
  refine ⟨Nat.le_refl _, rfl, rfl, ?_, id⟩
  simp [cancelledBy]

theorem Passed.trans (first : w.Passed inv later) (second : later.Passed inv last) :
    w.Passed inv last := by
  refine ⟨Nat.le_trans first.clock second.clock, second.deadline.trans first.deadline,
    second.cancelAt.trans first.cancelAt, ?_, second.shared ∘ first.shared⟩
  have hfirst := first.clock
  have hsecond := second.clock
  rw [second.cancelled, cancelledBy, first.cancelAt, first.cancelled, cancelledBy, cancelledBy]
  -- A cancellation that is due by the first of two instants is due by the second.
  cases hdue : w.cancelAt with
  | none => simp
  | some due =>
      simp only [Option.any_some]
      cases w.cancelled with
      | true => rfl
      | false =>
          rw [Bool.eq_iff_iff]
          simp only [Bool.false_or, Bool.or_eq_true, Bool.and_eq_true, decide_eq_true_eq]
          omega

theorem Passed.passTo (inv : σ → Prop) {time : Nat} (ahead : w.clock < time) :
    w.Passed inv (w.passTo time) := by
  refine ⟨Nat.le_of_lt ahead, rfl, rfl, ?_, id⟩
  rw [clock_passTo, cancelledBy, decide_eq_true ahead, Bool.true_and]
  rfl

/-- At the same instant the same has been heard of a cancellation. -/
theorem Passed.apply (change : Change σ) (uncancelled : change.cancels = false)
    (keeps : inv w.shared → inv change.shared) : w.Passed inv (w.apply change) := by
  refine ⟨Nat.le_refl _, rfl, rfl, ?_, keeps⟩
  simp [World.apply, cancelledBy, uncancelled]

end World

namespace Routine

/-- The custody of routines that do no more than let time pass and keep an invariant. -/
def passing (inv : σ → Prop) : Custody σ where
  rely _ w later := w.Passed inv later
  free _ := True
  brief := True
  rely_refl _ := World.Passed.refl inv
  rely_trans := World.Passed.trans
  rely_passTo _ _ _ := World.Passed.passTo inv
  rely_of_holds := id
  free_of_rely _ := id

/-- The worlds that a world can have become by an instant. -/
structure Became (inv : σ → Prop) (w : World σ) (now : Nat) (later : World σ) : Prop where
  passed : w.Passed inv later
  clock : later.clock = now
  shared : inv later.shared

/-- However the world has become by the instant at which the routine begins, it gives this answer at
that instant, and holds the lock then if and only if it did at first. -/
def Settles (inv : σ → Prop) (w : World σ) (holds : Bool) (now : Nat) (r : Routine σ α) (answer : α)
    (finish : Nat) : Prop :=
  ∀ later, Became inv w now later →
    r.Keeps (passing inv)
      (fun value still last => still = holds ∧ value = answer ∧ Became inv w finish last) holds later

/-- The answer of a routine without the lock and the instant of its end do not depend on what happens
in the meantime. -/
def Determined (inv : σ → Prop) (w : World σ) (now : Nat) (r : Routine σ α) : Prop :=
  ∃ answer finish, Settles inv w false now r answer finish

section

variable {inv : σ → Prop} {w : World σ} {holds : Bool} {now : Nat}

theorem Became.rely {later last : World σ} (h : Became inv w now later)
    (hrely : later.Passed inv last) : Became inv w last.clock last :=
  ⟨h.passed.trans hrely, rfl, hrely.shared h.shared⟩

theorem Settles.done (value : α) : Settles inv w holds now (.done value) value now :=
  fun _ became => ⟨rfl, rfl, became⟩

theorem Settles.bind {r : Routine σ α} {value : α} {last : Nat}
    (h : Settles inv w holds now r value last) {f : α → Routine σ β} {answer : β} {finish : Nat}
    (hf : Settles inv w holds last (f value) answer finish) :
    Settles inv w holds now (r.bind f) answer finish := by
  refine fun later became => (h later became).bind ?_
  rintro _ _ after ⟨rfl, rfl, became⟩
  exact hf after became

/-- A routine can change the shared state at any instant, as long as it keeps the invariant. -/
theorem Settles.act {change : World σ → Change σ} {next : World σ → Routine σ α} {answer : α}
    {finish : Nat}
    (h : ∀ later, later.clock = now → later.cancelled = w.cancelledBy now → inv later.shared →
      (change later).cancels = false ∧ inv (change later).shared ∧
        Settles inv w holds now (next later) answer finish) :
    Settles inv w holds now (.act change next) answer finish := by
  intro later became
  obtain ⟨uncancelled, keeps, hnext⟩ :=
    h later became.clock (became.clock ▸ became.passed.cancelled) became.shared
  have hpassed : later.Passed inv (later.apply (change later)) :=
    .apply _ uncancelled fun _ => keeps
  exact ⟨hpassed, hnext _ ⟨became.passed.trans hpassed, became.clock, keeps⟩⟩

theorem Settles.pause {next : Routine σ α} {micros : Nat} (brief : holds = true → micros = 0)
    {answer : α} {finish : Nat} (h : Settles inv w holds (now + micros) next answer finish) :
    Settles inv w holds now (.pause micros next) answer finish := by
  refine fun later became => ⟨fun _ => brief, ?_⟩
  rintro last ⟨hrely, clock⟩
  refine h last ?_
  rw [← became.clock, ← clock]
  exact became.rely hrely

theorem Settles.locked {body : Routine σ α} {answer : α} {finish : Nat}
    (h : Settles inv w true now body answer finish) :
    Settles inv w false now body.locked answer finish := by
  refine fun later became => ⟨rfl, ?_⟩
  rintro granted ⟨hrely, -, same⟩
  have clock : granted.clock = later.clock := same trivial
  have started : Became inv w now granted := by
    rw [← became.clock, ← clock]
    exact became.rely hrely
  refine (h granted started).bind ?_
  rintro _ _ last ⟨rfl, rfl, ended⟩
  exact ⟨rfl, trivial, rfl, rfl, ended⟩

/-- What a routine may learn of the world: the clock, whether a cancellation is due by then, and what
the invariant says. -/
theorem Settles.world {f : World σ → Routine σ α} {next : Routine σ α} {answer : α} {finish : Nat}
    (same : ∀ later, later.clock = now → later.cancelled = w.cancelledBy now → inv later.shared →
      f later = next)
    (h : Settles inv w holds now next answer finish) :
    Settles inv w holds now (Routine.world.bind f) answer finish := by
  refine .act fun later clock cancelled invariant => ⟨rfl, invariant, ?_⟩
  simp only [Routine.bind, same later clock cancelled invariant]
  exact h

theorem Settles.determined {r : Routine σ α} {answer : α} {finish : Nat}
    (h : Settles inv w false now r answer finish) : Determined inv w now r :=
  ⟨answer, finish, h⟩

theorem Settles.determined_bind {r : Routine σ α} {value : α} {last : Nat}
    (h : Settles inv w false now r value last) {f : α → Routine σ β}
    (hf : Determined inv w last (f value)) : Determined inv w now (r.bind f) := by
  obtain ⟨answer, finish, hlast⟩ := hf
  exact (h.bind hlast).determined

theorem Determined.bind {r : Routine σ α} (h : Determined inv w now r) {f : α → Routine σ β}
    (hf : ∀ value last, Determined inv w last (f value)) : Determined inv w now (r.bind f) := by
  obtain ⟨value, last, hr⟩ := h
  exact hr.determined_bind (hf value last)

theorem Determined.pause {next : Routine σ α} {micros : Nat}
    (h : Determined inv w (now + micros) next) : Determined inv w now (.pause micros next) := by
  obtain ⟨answer, finish, hnext⟩ := h
  exact (hnext.pause fun held => absurd held Bool.false_ne_true).determined

theorem Determined.world {f : World σ → Routine σ α}
    (same : ∀ later, later.clock = now → later.cancelled = w.cancelledBy now →
      f later = f (w.seenAt now))
    (h : Determined inv w now (f (w.seenAt now))) : Determined inv w now (Routine.world.bind f) := by
  obtain ⟨answer, finish, hnext⟩ := h
  exact (hnext.world fun later clock cancelled _ => same later clock cancelled).determined

/-- A routine that is determined answers the same alone. -/
theorem Determined.lasting {r : Routine σ α} (h : Determined inv w w.clock r)
    (hinv : inv w.shared) {later : World σ} (hlater : (passing inv).Ends false 0 w later) :
    r.Keeps (passing inv) (Lasting (passing inv) fun value _ => value = (r.runToEnd w).1) false
      later := by
  obtain ⟨answer, finish, hr⟩ := h
  have hself : Became inv w w.clock w := ⟨.refl inv w, rfl, hinv⟩
  obtain ⟨_, -, halone, -⟩ := (hr w hself).of_runToEnd fun _ => trivial
  rw [halone]
  have clock : later.clock = w.clock := hlater.2
  have became : Became inv w w.clock later := by
    rw [← clock]
    exact hself.rely hlater.1
  exact (hr later became).of_post fun value holds last ended => ⟨ended.1, fun _ _ => ended.2.1⟩

section

variable {routines : List (Routine σ α)} (orderly : ∀ r ∈ routines, r.Orderly false)
  (h : ∀ r ∈ routines, Determined inv w w.clock r) (hinv : inv w.shared) {bound : Nat}
  {later : World σ}

include h hinv in
theorem keeps_of_determined :
    (Group.start routines w).Keeps (passing inv)
      (fun i value _ => ∀ r, routines[i]? = some r → value = (r.runToEnd w).1) none := by
  refine Group.keeps_start trivial fun i r at_i last hlast => ?_
  refine ((h r (List.mem_of_getElem? at_i)).lasting hinv hlast).of_post ?_
  rintro value holds after ⟨rfl, same⟩
  refine ⟨rfl, fun last hlast r' at_i' => ?_⟩
  obtain rfl := Option.some.inj (at_i.symm.trans at_i')
  exact same last hlast

include orderly h hinv in
/-- Orderly routines that are determined answer together what each of them answers alone. -/
theorem runTogether_of_determined {values : List α}
    (hrun : runTogether bound routines w = (.ended values, later)) :
    values = routines.map fun r => (r.runToEnd w).1 := by
  obtain ⟨last, -, -, hended⟩ :=
    (keeps_of_determined h hinv).run bound (Group.orderly_start orderly w)
  obtain ⟨-, -, hvalues⟩ := hended values (congrArg Prod.fst hrun)
  have hlength : values.length = routines.length := by
    rw [Group.length_of_run bound hrun]
    simp [Group.start]
  refine List.ext_getElem (by simpa using hlength) fun i inside inside' => ?_
  rw [List.getElem_map]
  have r_at_i : routines[i]? = some routines[i] := List.getElem?_eq_getElem (hlength ▸ inside)
  exact hvalues i _ (List.getElem?_eq_getElem inside) _ r_at_i

include orderly h hinv in
/-- Without a deadline they are not cut. -/
theorem deadline_of_determined (hrun : runTogether bound routines w = (.cut, later)) :
    w.deadline ≠ none := by
  obtain ⟨last, hpassed, hlater, -⟩ :=
    (keeps_of_determined h hinv).run bound (Group.orderly_start orderly w)
  have hrun' : (Group.start routines w).run bound = (.cut, later) := hrun
  have hdue := Group.deadline_of_run bound hrun'
  rw [hrun'] at hlater
  have same : later.deadline = w.deadline := by
    rcases hlater with rfl | ⟨cut, rfl⟩ <;> exact hpassed.deadline
  rw [← same, hdue]
  exact Option.some_ne_none _

end

end

end Routine

end BrowserSteps
