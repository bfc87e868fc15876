import BrowserSteps.Proofs.Session.Instant
import BrowserSteps.Proofs.Session.Orderly
import BrowserSteps.Proofs.Wait.Alignment

/-!
Waits do not disturb each other. If queries take no time, the polls of a wait come at instants that
depend on its own plan alone: neither the line for the lock nor the pauses of the others move them.
So each of several waits finds what it would find alone.
-/

namespace BrowserSteps

variable {σ τ δ : Type}

namespace Wait

section

variable {inv : σ → Prop} {w : World σ} {now : Nat} {session : Session σ} {kind : SelectorKind}
  {selector : String} {found : Nat → Except Failure (Option ElementRef)}

/-- When a wait polls next depends on what it found and on the clock. -/
theorem determined_poll (p : Plan τ) {query : Command.Routine σ (Option ElementRef)}
    (h : ∀ now, Routine.Settles inv w false now query (found now) now) (start bound now : Nat) :
    Routine.Determined inv w now (poll p query start bound) := by
  induction bound generalizing now with
  | zero =>
      refine .world (fun later clock _ => ?_) (Routine.Settles.done _).determined
      rw [clock]
      rfl
  | succ bound ih =>
      -- The query ends at the instant at which it was made, and so the verdict on it is known.
      refine (h now).determined_bind (.world (fun later clock cancelled => ?_) ?_)
      · simp only [clock, cancelled]
        rfl
      · split
        next located _ => exact (Routine.Settles.done located).determined
        next pause _ => exact (ih (now + pause)).pause

theorem determined_element (scale : TimeScale τ)
    (h : ∀ now, Routine.Settles inv w false now (session.find kind selector) (found now) now)
    (limit : Number) (interval : τ) (heeds : Bool) (now : Nat) :
    Routine.Determined inv w now (element scale session kind selector limit interval heeds) := by
  refine .world (fun later clock _ => ?_) ?_
  · rw [clock]
    rfl
  · split
    · exact (Routine.Settles.done _).determined
    · split
      · exact (Routine.Settles.done _).determined
      · exact (determined_poll _ h _ _ now).bind fun _ _ => (Routine.Settles.done _).determined

theorem determined_worker (scale : TimeScale τ)
    (h : ∀ now, Routine.Settles inv w false now (session.find kind selector) (found now) now)
    (limit : Number) (interval : τ) (heeds : Bool) (now : Nat) :
    Routine.Determined inv w now (worker scale session kind limit interval heeds selector) := by
  refine .world (fun later clock _ => ?_) ?_
  · simp only [clock]
    rfl
  · refine (determined_element scale h limit interval heeds now).bind fun result last => ?_
    refine .world (fun later clock _ => ?_) (Routine.Settles.done _).determined
    rw [clock]
    rfl

end

theorem runToEnd_worker (scale : TimeScale τ) (session : Session σ) (kind : SelectorKind)
    (limit : Number) (interval : τ) (heeds : Bool) (selector : String) (w : World σ) :
    ((worker scale session kind limit interval heeds selector).runToEnd w).1 =
      let (answer, last) := (element scale session kind selector limit interval heeds).runToEnd w
      answer.map fun located =>
        ⟨located.element?, scale.millis (scale.ofMicros (last.clock - w.clock))⟩ := by
  have hself : w.apply { shared := w.shared } = w := by simp [World.apply]
  simp only [worker, Routine.runToEnd_bind, Routine.world, Routine.runToEnd, hself]

namespace Waits

variable (waits : Waits τ) (session : Session σ)

/-- The wait for a selector on its own. -/
def alone (selector : String) : Command.Routine σ (Located τ) :=
  element waits.scale session waits.kind selector waits.limit waits.interval waits.heeds

end Waits

end Wait

namespace Wait

/-- Several waits in a session of their own browser do not disturb each other. If the browser answers
queries at once, by what it shows at the instant, then whatever it shows and whenever a cancellation
comes, the slot of each selector has the element that the wait for it would find on its own, begun in
the same world, and the time that it would take. Without a deadline the waits do come back, unless
their limit is beyond all spans. -/
theorem waits_undisturbed {browser : Browser δ} {inv : δ → Prop}
    {present : String → Nat → Except Failure (Option ElementRef)} (shows : browser.Shows inv present)
    (waits : Waits τ) (w : World (Owned δ)) (showing : inv w.shared.browser) :
    let session := Session.exclusive browser
    (∀ turns (several : Several) later, waits.Returns session turns w several later →
      several.slots.length = waits.selectors.length ∧
      ∀ (i : Nat) (selector : String) (slot : Slot),
        waits.selectors[i]? = some selector → several.slots[i]? = some slot →
        ∃ located last, (waits.alone session selector).runToEnd w = (.ok located, last) ∧
          slot = ⟨located.element?,
            waits.scale.millis (waits.scale.ofMicros (last.clock - w.clock))⟩) ∧
    (w.deadline = none → ∃ enough, ∀ turns ≥ enough,
      (∃ several later, waits.Returns session turns w several later) ∨
        waits.scale.limit? waits.limit = none) := by
  intro session
  have hsteady : Session.Steady w.shared.isUsable inv w.shared := ⟨rfl, showing⟩
  have horderly : ∀ r ∈ waits.workers session, r.Orderly false := by
    intro r member
    obtain ⟨selector, -, rfl⟩ := List.mem_map.mp member
    exact orderly_worker _ (Session.orderly_find_exclusive browser _ _) _ _ _
  have hdetermined : ∀ r ∈ waits.workers session,
      Routine.Determined (Session.Steady w.shared.isUsable inv) w w.clock r := by
    intro r member
    obtain ⟨selector, -, rfl⟩ := List.mem_map.mp member
    exact determined_worker _ (fun now => Session.settles_find shows _ _) _ _ _ _
  refine ⟨fun turns several later returned => ?_, fun unlimited => ?_⟩
  · obtain ⟨results, hrun, hcollect⟩ := returned
    have hresults := Routine.runTogether_of_determined horderly hdetermined hsteady hrun
    rcases collect_cases waits.selectors results with ⟨slots, hslots, hok⟩ | ⟨e, -, hfailed⟩
    · obtain rfl := Except.ok.inj (hok.symm.trans hcollect)
      have hlength := Waits.length_of_ended hrun
      rw [hslots, List.length_map] at hlength
      refine ⟨hlength, fun i selector slot selector_at slot_at => ?_⟩
      have hsame : some (Except.ok slot) =
          some (((worker waits.scale session waits.kind waits.limit waits.interval waits.heeds
            selector).runToEnd w).1) := by
        have heq := congrArg (·[i]?) (hslots.symm.trans hresults)
        simpa [Waits.workers, selector_at, slot_at] using heq
      rw [runToEnd_worker, Option.some.injEq] at hsame
      unfold Waits.alone
      cases halone : (element waits.scale session waits.kind selector waits.limit waits.interval
          waits.heeds).runToEnd w with
      | mk answer last =>
          rw [halone] at hsame
          cases answer with
          | error e => cases hsame
          | ok located => exact ⟨located, last, rfl, Except.ok.inj hsame⟩
    · cases hfailed.symm.trans hcollect
  · obtain ⟨enough, ⟨close, later⟩, finished, hclose⟩ := Routine.runTogether_completes horderly w
    refine ⟨enough, fun turns hturns => ?_⟩
    have hrun := hclose turns hturns
    cases close with
    | ended results =>
        rcases Waits.returns_of_ended hrun with ⟨several, hcollect⟩ | beyond
        · exact .inl ⟨several, later, results, hrun, hcollect⟩
        · exact .inr beyond
    | cut =>
        exact absurd unlimited
          (Routine.deadline_of_determined horderly hdetermined hsteady hrun)
    | unfinished => exact absurd rfl finished

/-- What a page shows that gets its one element after fifty milliseconds. -/
def lateElement (selector : String) (now : Nat) : Except Failure (Option ElementRef) :=
  .ok (if selector = "id=x" ∧ 50000 ≤ now then some { key := selector } else none)

/-- A browser that shows that page. -/
def lateBrowser : Browser Unit where
  call command _ d :=
    (⟨none, fun now d =>
      (⟨false, match command with
        | .query selector => (lateElement selector now).map .element
        | _ => .ok .nothing⟩, d)⟩, d)

theorem lateBrowser_shows : lateBrowser.Shows (fun _ => True) lateElement where
  instant _ _ _ _ _ pauses := by cases pauses
  called _ _ _ _ := trivial
  finished _ _ _ _ _ _ := ⟨rfl, rfl, trivial⟩

theorem waits_undisturbed_of_late :
    let waits : Waits Nat :=
      { scale := .exact, kind := .id, limit := .whole 1, interval := 20000, selectors := ["x", "y"] }
    let w : World (Owned Unit) :=
      { cancelAt := some 100000, shared := { phase := .active, hasPage := true, browser := () } }
    lateBrowser.Shows (fun _ => True) lateElement ∧ w.deadline = none ∧
      ∃ turns several later, waits.Returns (Session.exclusive lateBrowser) turns w several later ∧
        several.slots.map (·.element) = [some { key := "id=x" }, none] := by
  intro waits w
  obtain ⟨halike, hreturns⟩ := waits_undisturbed lateBrowser_shows waits w trivial
  obtain ⟨turns, hturns⟩ := hreturns rfl
  obtain ⟨several, later, returned⟩ := (hturns turns le_rfl).resolve_right (by decide)
  refine ⟨lateBrowser_shows, rfl, turns, several, later, returned, ?_⟩
  obtain ⟨hlength, hslots⟩ := halike turns several later returned
  obtain ⟨first, second, hboth⟩ := List.length_eq_two.mp hlength
  rw [hboth] at hslots ⊢
  have hfirst : ((waits.alone (Session.exclusive lateBrowser) "x").runToEnd w).1.toOption.map
      Located.element? = some (some { key := "id=x" }) := by decide +kernel
  have hsecond : ((waits.alone (Session.exclusive lateBrowser) "y").runToEnd w).1.toOption.map
      Located.element? = some none := by decide +kernel
  obtain ⟨located, last, halone, rfl⟩ := hslots 0 "x" first rfl rfl
  obtain ⟨located', last', halone', rfl⟩ := hslots 1 "y" second rfl rfl
  rw [halone] at hfirst
  rw [halone'] at hsecond
  have found : located.element? = some { key := "id=x" } := Option.some.inj hfirst
  have missed : located'.element? = none := Option.some.inj hsecond
  simp [found, missed]

end Wait

end BrowserSteps
