import BrowserSteps.Proofs.Decimal.Overflow
import BrowserSteps.Proofs.Routine.Clock
import BrowserSteps.Proofs.Wait.Polling
import BrowserSteps.Proofs.Wait.Seconds

/-!
How a wait of whole seconds comes to an end. A query that fails does not end the wait with a failure;
what does is a limit for which there is no binary64 number. Otherwise every round of the wait takes
some time until the limit is reached, so that it always comes to an answer.
-/

namespace BrowserSteps

variable {σ τ α : Type}

namespace Wait

/-- A plan by which a wait takes time until its limit is reached, and reaches it before its bound on
the queries runs out. -/
structure Plan.Ends (p : Plan τ) : Prop where
  pauses : ∀ micros, p.scale.reaches (p.scale.ofMicros micros) p.limit = false →
    0 < p.scale.pause (p.scale.shorter p.interval (p.scale.sub p.limit (p.scale.ofMicros micros)))
  reaches : ∀ micros, p.scale.bound p.limit ≤ micros + 1 →
    p.scale.reaches (p.scale.ofMicros micros) p.limit = true

namespace Plan.Ends

variable {p : Plan τ}

theorem verdict_cases (ends : p.Ends) (found : Except Failure (Option ElementRef)) (micros : Nat)
    (cancelled : Bool) :
    (∃ located, p.verdict found (p.scale.ofMicros micros) cancelled = .inl located ∧
      located.reason? ≠ some .unfinished) ∨
    micros + 1 < p.scale.bound p.limit ∧
      ∃ pause, p.verdict found (p.scale.ofMicros micros) cancelled = .inr (pause + 1) := by
  unfold Plan.verdict
  split
  next => exact .inl ⟨_, rfl, by simp [Located.reason?]⟩
  next =>
    split
    next => exact .inl ⟨_, rfl, by simp [Located.reason?]⟩
    next short =>
      split
      next => exact .inl ⟨_, rfl, by simp [Located.reason?]⟩
      next =>
        rw [Bool.not_eq_true] at short
        have hbound : micros + 1 < p.scale.bound p.limit := by
          by_contra long
          rw [ends.reaches micros (by omega)] at short
          cases short
        obtain ⟨pause, hpause⟩ := Nat.exists_eq_add_one.mpr (ends.pauses micros short)
        exact .inr ⟨hbound, pause, by rw [hpause]⟩

/-- A poll is over before its bound runs out: every round takes time, and so does not the last. -/
theorem poll_finished (ends : p.Ends) (query : Command.Routine σ (Option ElementRef)) (start : Nat)
    {bound : Nat} (some : 0 < bound) {w later : World σ} {located : Located τ}
    (begun : start ≤ w.clock) (enough : p.scale.bound p.limit ≤ w.clock - start + bound)
    (answered : (poll p query start bound).runAlone w = (.some located, later)) :
    located.reason? ≠ .some .unfinished := by
  induction bound generalizing w with
  | zero => cases some
  | succ bound ih =>
      simp only [poll, Routine.runAlone_bind] at answered
      split at answered
      next found asked hquery =>
        have hasked := query.clock_le_of_runAlone hquery
        simp only [Routine.runAlone_world] at answered
        rcases ends.verdict_cases found (asked.clock - start) asked.cancelled with
          ⟨ended, hverdict, finished⟩ | ⟨short, pause, hverdict⟩
        · simp only [hverdict, Routine.runAlone] at answered
          cases answered
          exact finished
        · simp only [hverdict, Routine.runAlone] at answered
          split at answered
          next after hwait =>
            have hclock := World.clock_of_wait hwait
            exact ih (by omega) (by omega) (by omega) answered
          next => cases answered
      next => cases answered

end Plan.Ends

/-- A wait of whole seconds in binary64 pauses until its limit is reached. -/
theorem ends_of_whole {n : Int} {span : Float}
    (converts : TimeScale.binary.limit? (.whole n) = some span) (heeds : Bool) :
    Plan.Ends ⟨.binary, span, TimeScale.binary.interval, heeds⟩ where
  pauses micros short := by
    obtain ⟨unsigned, -⟩ := TimeScale.limit_of_whole converts
    have hinterval : 0.0 < TimeScale.binary.interval := by decide +kernel
    exact TimeScale.pause_pos unsigned (TimeScale.unsigned_secondsOfMicros micros) hinterval short
  reaches micros long := by
    obtain ⟨unsigned, finite⟩ := TimeScale.limit_of_whole converts
    exact TimeScale.reaches_of_bound unsigned finite long

/-- Whole seconds are no span of time in binary64 exactly if they are beyond its numbers. -/
theorem no_limit_iff {n : Int} :
    TimeScale.binary.limit? (.whole n) = none ↔ Binary64.limit ≤ n.natAbs :=
  limit?_binary_eq_none_iff.trans floatOfInt?_eq_none_iff

/-- A wait for an unknown kind of selector ends before its first query. -/
theorem runAlone_element_unknown (scale : TimeScale τ) (session : Session σ) (value : String)
    (limit : Number) (interval : τ) (heeds : Bool) (w : World σ) :
    (element scale session .unknown value limit interval heeds).runAlone w =
      (some (.ok (.missed .selectorKind (scale.ofMicros 0))), w) := by
  simp only [element, Routine.runAlone_bind, Routine.runAlone_world, Routine.runAlone, if_true]

/-- A wait whose limit cannot be represented fails before its first query. -/
theorem runAlone_element_beyond (scale : TimeScale τ) (session : Session σ) {kind : SelectorKind}
    (value : String) {limit : Number} (interval : τ) (heeds : Bool) (known : kind ≠ .unknown)
    (beyond : scale.limit? limit = none) (w : World σ) :
    (element scale session kind value limit interval heeds).runAlone w =
      (some (.error .hugeDuration), w) := by
  simp only [element, Routine.runAlone_bind, Routine.runAlone_world, Routine.runAlone, if_neg known,
    beyond]

/-- A wait of whole seconds fails exactly if its kind of selector is known and its limit is beyond the
numbers of binary64; it fails at once then, and nothing has been asked. Every other wait comes to an
answer, whatever its limit and however its queries go, unless it is cut at the deadline of the run. -/
theorem element_answers (session : Session σ) (kind : SelectorKind) (value : String) (n : Int)
    (heeds : Bool) (w : World σ) :
    let ran := (element .binary session kind value (.whole n) TimeScale.binary.interval
      heeds).runAlone w
    if kind ≠ .unknown ∧ Binary64.limit ≤ n.natAbs then ran = (some (.error .hugeDuration), w)
    else (∃ located, ran.1 = some (.ok located) ∧ located.reason? ≠ some .unfinished) ∨
      ran.1 = none ∧ ran.2.deadline = some ran.2.clock := by
  intro ran
  split
  next beyond =>
    exact runAlone_element_beyond _ session value _ heeds beyond.1
      (no_limit_iff.mpr beyond.2) w
  next within =>
    by_cases known : kind = .unknown
    · subst known
      have hrun : ran = _ := runAlone_element_unknown _ session value _ _ heeds w
      exact .inl ⟨_, congrArg Prod.fst hrun, by simp [Located.reason?]⟩
    · have converts : TimeScale.binary.limit? (.whole n) ≠ none := fun beyond =>
        within ⟨known, no_limit_iff.mp beyond⟩
      obtain ⟨span, hspan⟩ := Option.ne_none_iff_exists'.mp converts
      have hrun : ran = _ := runAlone_element _ session value _ heeds known hspan w
      have positive := (makesQuery_binary known (.whole n)).2 span hspan
      cases hended : ran.1 with
      | some answer =>
          rw [hrun, Prod.map_fst, Option.map_eq_some_iff] at hended
          obtain ⟨located, hlocated, rfl⟩ := hended
          refine .inl ⟨located, rfl, ?_⟩
          exact (ends_of_whole hspan heeds).poll_finished _ w.clock positive (Nat.le_refl _)
            (Nat.le_add_left _ _) (Prod.ext hlocated rfl)
      | none => exact .inr ⟨rfl, Routine.deadline_of_runAlone _ (Prod.ext hended rfl)⟩

/-- A wait of `10 ^ 400` seconds fails, although no failure of its queries would end it. -/
theorem element_of_ten_to_400 :
    (element .binary (Session.direct failingBrowser) .id "x" (.whole (10 ^ 400))
      TimeScale.binary.interval true).runAlone { shared := () } =
        (some (.error .hugeDuration), { shared := () }) := by
  have known : SelectorKind.id ≠ .unknown := by decide
  have beyond : TimeScale.binary.limit? (.whole (10 ^ 400)) = none :=
    no_limit_iff.mpr (by decide +kernel)
  exact runAlone_element_beyond _ _ "x" _ true known beyond _

end Wait

end BrowserSteps
