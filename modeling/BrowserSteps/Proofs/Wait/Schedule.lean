import BrowserSteps.Proofs.Wait.Polling
import BrowserSteps.Proofs.Wait.Undisturbed
import Mathlib.Order.Bounds.Basic

/-!
The instants at which a wait polls, computed exactly. If queries take no time and nothing cancels the
wait, it polls at every multiple of the interval up to its limit and at no other instant.
-/

namespace BrowserSteps

variable {σ α : Type}

/-- Nothing ends a routine in this world but the routine itself. -/
structure World.Quiet (w : World σ) : Prop where
  deadline : w.deadline = none
  cancelAt : w.cancelAt = none
  running : w.cancelled = false

/-- The world some time later, with another shared state. -/
def World.after (w : World σ) (micros : Nat) (shared : σ) : World σ :=
  { w with clock := w.clock + micros, shared }

namespace World

variable {w : World σ}

theorem Quiet.after (quiet : w.Quiet) (micros : Nat) (shared : σ) : (w.after micros shared).Quiet :=
  ⟨quiet.deadline, quiet.cancelAt, quiet.running⟩

theorem after_after (w : World σ) (micros more : Nat) (shared later : σ) :
    (w.after micros shared).after more later = w.after (micros + more) later := by
  simp [World.after, Nat.add_assoc]

theorem Quiet.wait_eq (quiet : w.Quiet) (micros : Nat) :
    w.wait (w.clock + micros) = (true, w.after micros w.shared) := by
  have never : w.cutBy? (w.clock + micros) = none := by simp [cutBy?, quiet.deadline]
  simp [World.wait, never, passTo, World.after, quiet.cancelAt, quiet.running]

end World

/-- Time passes by the whole pause. -/
theorem Routine.runAlone_pause_of_quiet {w : World σ} (quiet : w.Quiet) (micros : Nat)
    (next : Routine σ α) :
    (Routine.pause micros next).runAlone w = next.runAlone (w.after micros w.shared) := by
  cases micros with
  | zero => rfl
  | succ micros => simp only [runAlone, quiet.wait_eq]

namespace Wait

/-- A query answers at the instant at which it is made, by what there is then. What is known of the
shared state may depend on how many queries were made. -/
def Prompt (inv : Nat → σ → Prop) (query : Command.Routine σ (Option ElementRef))
    (present : Nat → Except Failure (Option ElementRef)) : Prop :=
  ∀ made w, inv made w.shared → ∃ shared, inv (made + 1) shared ∧
    query.runAlone w = (some (present w.clock), { w with shared })

/-- The element is there from some time after an instant on, if ever. -/
def Appears (present : Nat → Except Failure (Option ElementRef)) (found : ElementRef) (start : Nat)
    (delay : Option Nat) : Prop :=
  ∀ passed, (present (start + passed)).toOption.join =
    if ∃ a ∈ delay, a ≤ passed then some found else none

namespace Appears

variable {present : Nat → Except Failure (Option ElementRef)} {found : ElementRef}
  {start passed : Nat} {delay : Option Nat}

theorem there (appears : Appears present found start delay) {a : Nat} (ha : a ∈ delay)
    (reached : a ≤ passed) : (present (start + passed)).toOption.join = some found := by
  rw [appears, if_pos ⟨a, ha, reached⟩]

theorem nothing (appears : Appears present found start delay) (early : ∀ a ∈ delay, passed < a) :
    (present (start + passed)).toOption.join = none := by
  rw [appears, if_neg]
  rintro ⟨a, ha, reached⟩
  exact absurd reached (Nat.not_le_of_lt (early a ha))

end Appears

theorem exists_first_poll (a : Nat) :
    ∃ k, IsLeast {m | 20000 ∣ m ∧ a ≤ m} (20000 * k) ∧ ∀ j < k, 20000 * j < a := by
  refine ⟨(a + 19999) / 20000, ⟨⟨⟨_, rfl⟩, by omega⟩, ?_⟩, ?_⟩
  · rintro m ⟨⟨c, rfl⟩, hm⟩
    omega
  · intro j hj
    omega

theorem verdict_of_found {τ : Type} (p : Plan τ) {answer : Except Failure (Option ElementRef)}
    {found : ElementRef} (there : answer.toOption.join = some found) (elapsed : τ)
    (cancelled : Bool) : p.verdict answer elapsed cancelled = .inl (.found found elapsed) := by
  rcases answer with e | _ | element
  · cases there
  · cases there
  · obtain rfl : element = found := Option.some.inj there
    rfl

theorem verdict_of_missed {τ : Type} (p : Plan τ) {answer : Except Failure (Option ElementRef)}
    (missing : answer.toOption.join = none) (elapsed : τ) :
    p.verdict answer elapsed false =
      if p.scale.reaches elapsed p.limit then .inl (.missed .timeout elapsed)
      else .inr (p.scale.pause (p.scale.shorter p.interval (p.scale.sub p.limit elapsed))) := by
  rcases answer with e | _ | element
  · simp [Plan.verdict]
  · simp [Plan.verdict]
  · cases missing

/-- A wait of whole seconds in exact time. -/
def exactPlan (seconds : Nat) (heeds : Bool) : Plan Nat :=
  ⟨.exact, seconds * 1000000, TimeScale.exact.interval, heeds⟩

section

variable {inv : Nat → σ → Prop} {query : Command.Routine σ (Option ElementRef)}
  {present : Nat → Except Failure (Option ElementRef)} {w : World σ} (heeds : Bool) {seconds : Nat}
  {k : Nat} {shared : σ}

/-- A poll at some instant is a query and its verdict. -/
theorem runAlone_poll_of_prompt (prompt : Prompt inv query present) (quiet : w.Quiet)
    (known : inv k shared) (seconds passed bound : Nat) :
    ∃ next, inv (k + 1) next ∧
      (poll (exactPlan seconds heeds) query w.clock (bound + 1)).runAlone (w.after passed shared) =
        match (exactPlan seconds heeds).verdict (present (w.clock + passed)) passed false with
        | .inl located => (some located, w.after passed next)
        | .inr pause =>
          (poll (exactPlan seconds heeds) query w.clock bound).runAlone
            (w.after (passed + pause) next) := by
  obtain ⟨next, hinv, hquery⟩ := prompt k (w.after passed shared) known
  refine ⟨next, hinv, ?_⟩
  have hanswer : query.runAlone (w.after passed shared) =
      (some (present (w.clock + passed)), w.after passed next) := hquery
  have hclock : (w.after passed next).clock = w.clock + passed := rfl
  have helapsed : (exactPlan seconds heeds).scale.ofMicros (w.clock + passed - w.clock) = passed :=
    Nat.add_sub_cancel_left ..
  have hrunning : (w.after passed next).cancelled = false := quiet.running
  simp only [poll, Routine.runAlone_bind, hanswer, Routine.runAlone_world, hclock, helapsed,
    hrunning]
  cases (exactPlan seconds heeds).verdict (present (w.clock + passed)) passed false with
  | inl located => rfl
  | inr pause =>
      have hpause := Routine.runAlone_pause_of_quiet (quiet.after passed next) pause
        (poll (exactPlan seconds heeds) query w.clock bound)
      rwa [World.after_after] at hpause

/-- Before the limit a poll that finds nothing is followed by one after the whole interval. -/
theorem poll_again (prompt : Prompt inv query present) (quiet : w.Quiet) (known : inv k shared)
    (before : k < 50 * seconds) (missed : (present (w.clock + 20000 * k)).toOption.join = none)
    (bound : Nat) :
    ∃ next, inv (k + 1) next ∧
      (poll (exactPlan seconds heeds) query w.clock (bound + 1)).runAlone
          (w.after (20000 * k) shared) =
        (poll (exactPlan seconds heeds) query w.clock bound).runAlone
          (w.after (20000 * (k + 1)) next) := by
  obtain ⟨next, hinv, hpoll⟩ :=
    runAlone_poll_of_prompt heeds prompt quiet known seconds (20000 * k) bound
  refine ⟨next, hinv, ?_⟩
  have hpause : (exactPlan seconds heeds).verdict (present (w.clock + 20000 * k)) (20000 * k) false =
      .inr 20000 := by
    rw [verdict_of_missed _ missed]
    simp only [exactPlan, TimeScale.exact, decide_eq_true_eq]
    rw [if_neg (by omega), Nat.min_eq_left (by omega)]
  rw [hpoll, hpause]
  rfl

/-- The course of a wait up to some multiple of the interval, if it finds nothing before. -/
theorem poll_until (prompt : Prompt inv query present) (quiet : w.Quiet) (known : inv 0 w.shared)
    (within : k ≤ 50 * seconds)
    (missed : ∀ j < k, (present (w.clock + 20000 * j)).toOption.join = none) (bound : Nat) :
    ∃ next, inv k next ∧
      (poll (exactPlan seconds heeds) query w.clock (bound + k)).runAlone w =
        (poll (exactPlan seconds heeds) query w.clock bound).runAlone (w.after (20000 * k) next) := by
  induction k generalizing bound with
  | zero => exact ⟨w.shared, known, rfl⟩
  | succ k ih =>
      have earlier : ∀ j < k, (present (w.clock + 20000 * j)).toOption.join = none := by
        intro j hj
        apply missed
        omega
      obtain ⟨shared, hshared, hcourse⟩ := ih (Nat.le_of_succ_le within) earlier (bound + 1)
      obtain ⟨next, hnext, hagain⟩ :=
        poll_again heeds prompt quiet hshared within (missed k (Nat.lt_succ_self k)) bound
      refine ⟨next, hnext, ?_⟩
      rw [show bound + (k + 1) = bound + 1 + k by omega, hcourse, hagain]

/-- A wait that first finds the element at some multiple of the interval ends there. -/
theorem poll_finds (prompt : Prompt inv query present) (quiet : w.Quiet) (known : inv 0 w.shared)
    (within : k ≤ 50 * seconds)
    (missed : ∀ j < k, (present (w.clock + 20000 * j)).toOption.join = none) {found : ElementRef}
    (there : (present (w.clock + 20000 * k)).toOption.join = some found) (spare : Nat) :
    ∃ last, inv (k + 1) last ∧
      (poll (exactPlan seconds heeds) query w.clock (spare + 1 + k)).runAlone w =
        (some (.found found (20000 * k)), w.after (20000 * k) last) := by
  obtain ⟨shared, hshared, hcourse⟩ := poll_until heeds prompt quiet known within missed (spare + 1)
  obtain ⟨last, hlast, hpoll⟩ :=
    runAlone_poll_of_prompt heeds prompt quiet hshared seconds (20000 * k) spare
  refine ⟨last, hlast, ?_⟩
  rw [hcourse, hpoll, verdict_of_found _ there]

/-- A wait that finds nothing ends at its limit. -/
theorem poll_times_out (prompt : Prompt inv query present) (quiet : w.Quiet)
    (known : inv 0 w.shared)
    (missed : ∀ j ≤ 50 * seconds, (present (w.clock + 20000 * j)).toOption.join = none)
    (spare : Nat) :
    ∃ last, inv (50 * seconds + 1) last ∧
      (poll (exactPlan seconds heeds) query w.clock (spare + 1 + 50 * seconds)).runAlone w =
        (some (.missed .timeout (seconds * 1000000)), w.after (seconds * 1000000) last) := by
  obtain ⟨shared, hshared, hcourse⟩ := poll_until heeds prompt quiet known (Nat.le_refl (50 * seconds))
    (fun j hj => missed j (Nat.le_of_lt hj)) (spare + 1)
  obtain ⟨last, hlast, hpoll⟩ :=
    runAlone_poll_of_prompt heeds prompt quiet hshared seconds (20000 * (50 * seconds)) spare
  refine ⟨last, hlast, ?_⟩
  have hlimit : 20000 * (50 * seconds) = seconds * 1000000 := by omega
  rw [hcourse, hpoll, verdict_of_missed _ (missed _ (Nat.le_refl _)), hlimit]
  simp [exactPlan, TimeScale.exact]

/-- How a wait for an element that appears after some delay ends: the answer, its instant and the
number of queries made. -/
structure OnSchedule (seconds : Nat) (found : ElementRef) (delay : Option Nat) (start : Nat)
    (located : Located Nat) (finish made : Nat) : Prop where
  detected : ∀ a ∈ delay, a ≤ seconds * 1000000 → ∃ elapsed, located = .found found elapsed ∧
    IsLeast {m | 20000 ∣ m ∧ a ≤ m} elapsed ∧ elapsed ≤ seconds * 1000000 ∧
    finish = start + elapsed
  missed : (∀ a ∈ delay, seconds * 1000000 < a) →
    located = .missed .timeout (seconds * 1000000) ∧ finish = start + seconds * 1000000 ∧
    made = 50 * seconds + 1

theorem poll_on_schedule (seconds : Nat) (prompt : Prompt inv query present) (quiet : w.Quiet)
    (known : inv 0 w.shared) {found : ElementRef} {delay : Option Nat}
    (appears : Appears present found w.clock delay) :
    ∃ located last made, inv made last.shared ∧
      (poll (exactPlan seconds heeds) query w.clock (seconds * 1000000 + 2)).runAlone w =
        (some located, last) ∧
      OnSchedule seconds found delay w.clock located last.clock made := by
  by_cases intime : ∃ a ∈ delay, a ≤ seconds * 1000000
  · obtain ⟨a, ha, hle⟩ := intime
    obtain ⟨k, hleast, hfirst⟩ := exists_first_poll a
    have within : 20000 * k ≤ seconds * 1000000 := hleast.2 ⟨⟨50 * seconds, by omega⟩, hle⟩
    have before : ∀ j < k, (present (w.clock + 20000 * j)).toOption.join = none := by
      intro j hj
      apply appears.nothing
      intro b hb
      obtain rfl := Option.mem_unique ha hb
      exact hfirst j hj
    obtain ⟨last, hlast, hrun⟩ := poll_finds heeds prompt quiet known
      (show k ≤ 50 * seconds by omega) before (appears.there ha hleast.1.2)
      (seconds * 1000000 + 1 - k)
    rw [show seconds * 1000000 + 1 - k + 1 + k = seconds * 1000000 + 2 by omega] at hrun
    refine ⟨_, _, k + 1, hlast, hrun, ?_, ?_⟩
    · intro b hb _
      obtain rfl := Option.mem_unique ha hb
      exact ⟨_, rfl, hleast, within, rfl⟩
    · intro late
      exact absurd (late a ha) (Nat.not_lt_of_le hle)
  · have late : ∀ a ∈ delay, seconds * 1000000 < a := by
      intro a ha
      by_contra hle
      exact intime ⟨a, ha, Nat.le_of_not_lt hle⟩
    have nowhere : ∀ j ≤ 50 * seconds, (present (w.clock + 20000 * j)).toOption.join = none := by
      intro j hj
      apply appears.nothing
      intro a ha
      have := late a ha
      omega
    obtain ⟨last, hlast, hrun⟩ := poll_times_out heeds prompt quiet known nowhere
      (seconds * 1000000 + 1 - 50 * seconds)
    rw [show seconds * 1000000 + 1 - 50 * seconds + 1 + 50 * seconds = seconds * 1000000 + 2 by
      omega] at hrun
    refine ⟨_, _, 50 * seconds + 1, hlast, hrun, ?_, ?_⟩
    · intro a ha hle
      exact absurd (late a ha) (Nat.not_lt_of_le hle)
    · intro _
      exact ⟨rfl, rfl, rfl⟩

end

theorem Prompt.watched {inv : σ → Prop} {session : Session σ} {kind : SelectorKind} {value : String}
    {present : Nat → Except Failure (Option ElementRef)}
    (prompt : Prompt (fun _ => inv) (session.find kind value) present) (i : Nat) :
    Prompt (fun made s => inv s.shared ∧ (s.asked i).length = made)
      ((session.watched i).find kind value) present := by
  intro made w ⟨holds, hmade⟩
  obtain ⟨shared, hinv, hquery⟩ := prompt made (w.map Watched.shared) holds
  have untouched : Stable (σ := σ) i fun now => now.shared.asked i = w.shared.asked i :=
    stable_queries fun queries => queries = w.shared.asked i
  have htraced := Traced.watched untouched (session.find kind value)
  have hsame := htraced.shadows.runAlone_eq w
  rw [hquery] at hsame
  cases hrun : (session.find kind value).watched.runAlone w with
  | mk ended later =>
      rw [hrun, Prod.mk.injEq] at hsame
      obtain ⟨rfl, hlater⟩ := hsame
      have hasked : later.shared.asked i = w.shared.asked i :=
        (htraced.meets w rfl).of_runAlone hrun
      simp only [World.map, World.mk.injEq] at hlater
      obtain ⟨hclock, hdeadline, hcancelAt, hcancelled, rfl⟩ := hlater
      have hseen : (w.map Watched.shared).clock = later.clock := hclock
      refine ⟨later.shared.note i ⟨kind, value, present w.clock, later.clock, later.cancelled⟩,
        ⟨hinv, ?_⟩, ?_⟩
      · simp [Watched.note, hasked, hmade]
      · simp only [Session.watched, Routine.runAlone_bind, hrun, Routine.runAlone, World.apply,
          hseen, hclock, hdeadline, hcancelAt, hcancelled, Bool.false_or]

/-- In exact time, if queries take no time and nothing cancels the wait, a wait of whole seconds comes
to an end. An element that appears by the limit is found at the first multiple of the interval at which
it is there, and one that appears later or never is missed at the limit itself, after one query at each
multiple of the interval up to there. -/
theorem element_schedule {inv : σ → Prop} {session : Session σ} {kind : SelectorKind}
    {value : String} {present : Nat → Except Failure (Option ElementRef)} {found : ElementRef}
    {delay : Option Nat} (seconds : Nat) (heeds : Bool) {w : World σ} (known : kind ≠ .unknown)
    (quiet : w.Quiet) (prompt : Prompt (fun _ => inv) (session.find kind value) present)
    (holds : inv w.shared) (appears : Appears present found w.clock delay) :
    ∃ located noted,
      (element .exact session kind value (.whole seconds) TimeScale.exact.interval heeds).runAlone w =
        (some (.ok located), noted.map Watched.shared) ∧
      (element .exact (session.watched 0) kind value (.whole seconds) TimeScale.exact.interval
        heeds).runAlone w.watched = (some (.ok located), noted) ∧
      OnSchedule seconds found delay w.clock located noted.clock (noted.shared.asked 0).length := by
  have hlimit : TimeScale.exact.limit? (.whole seconds) = some (seconds * 1000000) := rfl
  have still : w.watched.Quiet := ⟨quiet.deadline, quiet.cancelAt, quiet.running⟩
  obtain ⟨located, noted, made, ⟨-, hmade⟩, hpoll, schedule⟩ := poll_on_schedule heeds seconds
    (prompt.watched 0) still ⟨holds, rfl⟩ appears
  have hnoted : (element .exact (session.watched 0) kind value (.whole seconds)
      TimeScale.exact.interval heeds).runAlone w.watched = (some (.ok located), noted) := by
    rw [runAlone_element _ _ _ _ _ known hlimit]
    exact congrArg _ hpoll
  have htraced := answered_element (i := 0) session kind value .exact (.whole seconds)
    TimeScale.exact.interval heeds
  have hsame := htraced.shadows.runAlone_eq w.watched
  rw [hnoted] at hsame
  exact ⟨located, noted, hsame, hnoted, hmade ▸ schedule⟩

theorem element_schedule_of_late :
    let session := Session.direct lateBrowser
    let w : World Unit := { clock := 25000, shared := () }
    SelectorKind.id ≠ .unknown ∧ w.Quiet ∧
      Prompt (fun _ _ => True) (session.find .id "x") (lateElement "id=x") ∧
      Appears (lateElement "id=x") { key := "id=x" } w.clock (some 25000) ∧
      ∃ later, (element .exact session .id "x" (.whole (1 : Nat)) TimeScale.exact.interval
        true).runAlone w = (some (.ok (.found { key := "id=x" } 40000)), later) := by
  intro session w
  have known : SelectorKind.id ≠ .unknown := by decide
  have quiet : w.Quiet := ⟨rfl, rfl, rfl⟩
  have prompt : Prompt (fun _ _ => True) (session.find .id "x") (lateElement "id=x") := by
    intro made v _
    exact ⟨(), trivial, rfl⟩
  have appears : Appears (lateElement "id=x") { key := "id=x" } w.clock (some 25000) := by
    intro passed
    have hsince : 50000 ≤ 25000 + passed ↔ 25000 ≤ passed := by omega
    simp [lateElement, w, hsince, Except.toOption]
  refine ⟨known, quiet, prompt, appears, ?_⟩
  obtain ⟨located, noted, hrun, -, schedule⟩ :=
    element_schedule 1 true known quiet prompt trivial appears
  obtain ⟨elapsed, rfl, ⟨⟨⟨c, hc⟩, hreached⟩, hleast⟩, -, -⟩ :=
    schedule.detected 25000 rfl (by decide)
  have hfirst : elapsed ≤ 40000 := hleast ⟨by decide, by decide⟩
  obtain rfl : elapsed = 40000 := by omega
  exact ⟨_, hrun⟩

end Wait

end BrowserSteps
