import BrowserSteps.Proofs.Wait.Alignment
import BrowserSteps.Session.Direct

/-!
How a wait ends. Every query of a wait but its last one found nothing, and the wait ends with what the
last one found at the instant of its answer: with the element, because the limit is reached, or because
a cancellation had been requested by then, in this order.
-/

namespace BrowserSteps

variable {σ τ : Type}

namespace Wait

/-- What is told of the end of a wait; nothing, if it found its element. -/
def Located.reason (located : Located τ) : String :=
  (located.reason?.map Reason.message).getD ""

/-- The end of a wait that began at an instant follows from its last query. -/
structure Concludes (p : Plan τ) (start : Nat) (last : Query) (located : Located τ) : Prop where
  elapsed : located.elapsed = p.scale.ofMicros (last.clock - start)
  element : located.element? = last.element?
  silent : located.reason = "" ↔ last.element?.isSome
  timeout : located.reason = "wait element timeout" ↔
    last.element? = none ∧ p.scale.reaches located.elapsed p.limit = true
  cancelled : located.reason = "run cancelled" ↔
    last.element? = none ∧ p.scale.reaches located.elapsed p.limit = false ∧
      p.heeds = true ∧ last.late = true
  decided : last.element? = none →
    located.reason = "wait element timeout" ∨ located.reason = "run cancelled"

/-- The queries of a wait that is over. -/
def Over (p : Plan τ) (start : Nat) (located : Located τ) (queries : List Query) : Prop :=
  ∃ earlier last, queries = earlier ++ [last] ∧ (∀ q ∈ earlier, q.element? = none) ∧
    Concludes p start last located

theorem concludes_of_verdict {p : Plan τ} {start : Nat} {last : Query} {located : Located τ}
    (h : p.verdict last.answer (p.scale.ofMicros (last.clock - start)) last.late = .inl located) :
    Concludes p start last located := by
  have helement : located.element? = last.element? := element_of_verdict h
  unfold Plan.verdict at h
  split at h
  next element hanswer =>
    obtain rfl := Sum.inl.inj h
    have found : last.element? = some element := helement.symm
    constructor <;> simp [found, Located.element?, Located.elapsed, Located.reason, Located.reason?]
  next nothing =>
    split at h
    next reached =>
      obtain rfl := Sum.inl.inj h
      have missed : last.element? = none := helement.symm
      constructor <;> simp [missed, reached, Located.element?, Located.elapsed, Located.reason,
        Located.reason?, Reason.message]
    next short =>
      split at h
      next stopped =>
        obtain rfl := Sum.inl.inj h
        have missed : last.element? = none := helement.symm
        obtain ⟨heeds, late⟩ := Bool.and_eq_true_iff.mp stopped
        constructor <;> simp [missed, short, heeds, late, Located.element?, Located.elapsed,
          Located.reason, Located.reason?, Reason.message]
      next => cases h

section

variable {i : Nat} (session : Session σ) (kind : SelectorKind) (value : String)

/-- A wait goes on only while nothing is found. -/
theorem over_poll (p : Plan τ) (start bound : Nat) :
    Traced i (fun w => ∀ q ∈ w.shared.asked i, q.element? = none)
      (fun located w => located.reason? ≠ some .unfinished →
        Over p start located (w.shared.asked i))
      (poll p ((session.watched i).find kind value) start bound)
      (poll p (session.find kind value) start bound) := by
  have kept (located : Located τ) : Stable (σ := σ) i fun w =>
      located.reason? ≠ some .unfinished → Over p start located (w.shared.asked i) :=
    stable_queries fun queries => located.reason? ≠ some .unfinished → Over p start located queries
  have searching : Stable (σ := σ) i fun w => ∀ q ∈ w.shared.asked i, q.element? = none :=
    stable_queries fun queries => ∀ q ∈ queries, q.element? = none
  induction bound with
  | zero =>
      refine .world fun w => .done (kept _) ?_
      intro now _ finished
      exact absurd rfl finished
  | succ bound ih =>
      -- Between the note of a query and the look at the clock no time passes.
      let asks (answer : Except Failure (Option ElementRef)) (now : World (Watched σ)) : Prop :=
        ∃ earlier, (∀ q ∈ earlier, q.element? = none) ∧
          now.shared.asked i = earlier ++ [⟨kind, value, answer, now.clock, now.cancelled⟩]
      refine Traced.find_bind session kind value asks searching ?_ fun answer => .world fun w => ?_
      · intro answer w before
        exact ⟨_, before, Function.update_self ..⟩
      simp only [show (w.map Watched.shared).clock = w.clock from rfl,
        show (w.map Watched.shared).cancelled = w.cancelled from rfl]
      cases hverdict : p.verdict answer (p.scale.ofMicros (w.clock - start)) w.cancelled with
      | inl located =>
          refine .done (kept located) ?_
          rintro now ⟨rfl, earlier, missed, hasked⟩ -
          exact ⟨earlier, _, hasked, missed, concludes_of_verdict hverdict⟩
      | inr pause =>
          refine (Traced.pause searching ih pause).of_pre ?_
          rintro now ⟨rfl, earlier, missed, hasked⟩ q member
          rw [hasked, List.mem_append, List.mem_singleton] at member
          rcases member with earlier | rfl
          · exact missed q earlier
          · exact nothing_of_pause hverdict

end

/-- A wait for a known kind of selector is a poll. -/
theorem runAlone_element (scale : TimeScale τ) (session : Session σ) {kind : SelectorKind}
    (value : String) {limit : Number} {span : τ} (interval : τ) (heeds : Bool)
    (known : kind ≠ .unknown) (converts : scale.limit? limit = some span) (w : World σ) :
    (element scale session kind value limit interval heeds).runAlone w =
      ((poll ⟨scale, span, interval, heeds⟩ (session.find kind value) w.clock
        (scale.bound span)).runAlone w).map (Option.map .ok) id := by
  simp only [element, Routine.runAlone_bind, Routine.runAlone_world, Routine.runAlone, if_neg known,
    converts]
  split
  next located later hrun => rw [hrun]; rfl
  next later hrun => rw [hrun]; rfl

/-- Whatever the session answers and however long it takes, and whenever a cancellation comes: a wait
of some binary64 seconds for a known kind of selector is a poll of the session, with a bound on the
queries that its limit sets. Under this bound or any other, a poll that returns has made a query, no
query but the last found an element, and the end follows from the last one: the element and no reason,
else a timeout if by then the limit was reached, or no time at all for a negative one, else the
cancellation. A poll whose bound ran out has not returned. -/
theorem element_concludes (session : Session σ) {kind : SelectorKind} (value : String)
    {limit : Number} {seconds : Float} (interval : Float) (heeds : Bool) (w : World σ)
    (known : kind ≠ .unknown) (converts : limit.toFloat? = some seconds) :
    let p : Plan Float := ⟨.binary, if 0.0 < seconds then seconds else 0.0, interval, heeds⟩
    (element .binary session kind value limit interval heeds).runAlone w =
      ((poll p (session.find kind value) w.clock (p.scale.bound p.limit)).runAlone w).map
        (Option.map .ok) id ∧
    ∀ bound located later,
      (poll p (session.find kind value) w.clock bound).runAlone w = (some located, later) →
      located.reason? ≠ some .unfinished →
      ∃ noted, (poll p ((session.watched 0).find kind value) w.clock bound).runAlone w.watched =
          (some located, noted) ∧
        noted.map Watched.shared = later ∧ Over p w.clock located (noted.shared.asked 0) := by
  intro p
  constructor
  · have hspan : TimeScale.binary.limit? limit = some p.limit := by
      simp [TimeScale.binary, converts, p]
    exact runAlone_element _ session value interval heeds known hspan w
  · intro bound located later returned finished
    have htraced := over_poll (i := 0) session kind value p w.clock bound
    have hsame := htraced.shadows.runAlone_eq w.watched
    rw [show w.watched.map Watched.shared = w from rfl, returned, Prod.mk.injEq] at hsame
    obtain ⟨hlocated, hlater⟩ := hsame
    have hnoted : (poll p ((session.watched 0).find kind value) w.clock bound).runAlone w.watched =
        (some located, _) := Prod.ext hlocated.symm rfl
    have untold : ∀ q ∈ w.watched.shared.asked 0, q.element? = none := by
      intro q member
      cases member
    exact ⟨_, hnoted, hlater.symm, (htraced.meets _ untold).of_runAlone hnoted finished⟩

/-- A browser that fails all its queries. -/
def failingBrowser : Browser Unit where
  call _ _ d := (⟨some 7000, fun _ d => (⟨false, .error .hugeDuration⟩, d)⟩, d)

theorem element_concludes_of_failing :
    let p : Plan Float := ⟨.binary, if 0.0 < (1.0 : Float) then 1.0 else 0.0, 0.02, true⟩
    let w : World Unit := { cancelAt := some 50000, shared := () }
    let session := Session.direct failingBrowser
    SelectorKind.id ≠ .unknown ∧ (Number.real 1.0).toFloat? = some 1.0 ∧
      ∃ located later noted, (poll p (session.find .id "x") w.clock 4).runAlone w =
          (some located, later) ∧ located.reason? ≠ some .unfinished ∧
        (poll p ((session.watched 0).find .id "x") w.clock 4).runAlone w.watched =
          (some located, noted) ∧
        located.reason = "run cancelled" ∧ Over p w.clock located (noted.shared.asked 0) := by
  intro p w session
  have known : SelectorKind.id ≠ .unknown := by decide
  have converts : (Number.real 1.0).toFloat? = some 1.0 := rfl
  refine ⟨known, converts, ?_⟩
  obtain ⟨-, hconcludes⟩ := element_concludes session "x" 0.02 true w known converts
  have hreason : ((poll p (session.find .id "x") w.clock 4).runAlone w).1.map Located.reason =
      some "run cancelled" := by decide +kernel
  cases hrun : (poll p (session.find .id "x") w.clock 4).runAlone w with
  | mk ended later =>
      rw [hrun] at hreason
      cases ended with
      | none => cases hreason
      | some located =>
          have reason : located.reason = "run cancelled" := Option.some.inj hreason
          have finished : located.reason? ≠ some .unfinished := by
            intro unfinished
            rw [Located.reason, unfinished] at reason
            exact absurd reason (by decide)
          obtain ⟨noted, hnoted, -, hover⟩ := hconcludes 4 located later hrun finished
          exact ⟨located, later, noted, rfl, finished, hnoted, reason, hover⟩

end Wait

end BrowserSteps
