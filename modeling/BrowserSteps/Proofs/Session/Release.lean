import BrowserSteps.Proofs.Session.Ledger
import BrowserSteps.Session.Opened
import Mathlib.Tactic.IntervalCases

/-!
What opening and closing a session enter in the ledger of its browser. Each of the two gives its
commands one after the other, up to the first that is not granted. A session that is open closes its
browser once, and stops it if that was granted; one that could not be opened gives back nothing.
-/

namespace BrowserSteps.Ledger

variable {δ α : Type}

/-- The entries of commands that are given one after the other, up to the first that is not granted.
The number says how many are. -/
def tried : List Command → Nat → List Entry
  | [], _ => []
  | command :: _, 0 => [.given command]
  | command :: rest, n + 1 => .given command :: .granted command :: tried rest n

/-- The commands that open a session. -/
def acquiring (window : Window) : List Command :=
  [.start, .launch !window.headed, .newContext window.width window.height, .newPage]

/-- The commands that close it. -/
def releasing : List Command := [.closeBrowser, .stop]

section

variable (browser : Browser δ)

theorem shadows_steps {commands' : List (Command.Routine (Owned (Ledger δ)) Unit)}
    {commands : List (Command.Routine (Owned δ) Unit)}
    (h : List.Forall₂ (Routine.Shadows unrecorded) commands' commands) :
    (Session.steps commands').Shadows unrecorded (Session.steps commands) := by
  induction h with
  | nil => exact .done _
  | cons command _ ih =>
      refine command.bind fun result => ?_
      cases result with
      | ok _ => exact ih
      | error e => exact .done _

theorem shadows_obtain (command : Command)
    {keep' : Owned (Ledger δ) → Owned (Ledger δ)} {keep : Owned δ → Owned δ}
    (kept : ∀ s, unrecorded (keep' s) = keep (unrecorded s)) :
    (Session.obtain browser.recorded command keep').Shadows unrecorded
      (Session.obtain browser command keep) := by
  refine (shadows_ask browser command _).bind fun result => ?_
  cases result with
  | ok _ =>
      refine .act (fun w => ?_) fun _ => .done _
      exact congrArg (fun s => (w.map unrecorded).apply { shared := s }) (kept w.shared)
  | error e => exact .done _

theorem shadows_launch (window : Window) :
    (Session.launch browser.recorded window).Shadows unrecorded
      (Session.launch browser window) := by
  refine .world fun w => ?_
  change Routine.Shadows unrecorded (if w.shared.phase = .active then _ else _)
    (if w.shared.phase = .active then _ else _)
  split
  · exact .done _
  · refine .act (fun _ => rfl) fun _ => (shadows_steps ?_).bind fun result => ?_
    · exact .cons (shadows_obtain browser _ fun _ => rfl)
        (.cons (shadows_obtain browser _ fun _ => rfl)
          (.cons (shadows_obtain browser _ fun _ => rfl)
            (.cons (shadows_obtain browser _ fun _ => rfl) .nil)))
    · cases result with
      | ok _ => exact .done _
      | error e => exact .act (fun _ => rfl) fun _ => .done _

theorem shadows_releaseIf (command : Command)
    {holds' : Owned (Ledger δ) → Bool} {holds : Owned δ → Bool}
    (same : ∀ s, holds' s = holds (unrecorded s)) :
    (Session.releaseIf browser.recorded holds' command).Shadows unrecorded
      (Session.releaseIf browser holds command) := by
  refine .world fun w => ?_
  change Routine.Shadows unrecorded (if holds' w.shared then _ else _)
    (if holds (unrecorded w.shared) then _ else _)
  rw [same]
  split
  · exact shadows_ask browser command _
  · exact .done _

theorem shadows_close :
    (Session.close browser.recorded).Shadows unrecorded (Session.close browser) := by
  refine .world fun w => ?_
  have hclose : (((Session.setOwned fun s : Owned (Ledger δ) => { s with phase := .closing }).bind
      fun _ => (Session.steps (Session.releases browser.recorded)).bind fun _ =>
      Session.setOwned fun s => { phase := .closed, browser := s.browser })).Shadows unrecorded
      ((Session.setOwned fun s : Owned δ => { s with phase := .closing }).bind
      fun _ => (Session.steps (Session.releases browser)).bind fun _ =>
      Session.setOwned fun s => { phase := .closed, browser := s.browser }) := by
    refine .act (fun _ => rfl) fun _ => (shadows_steps ?_).bind fun result => ?_
    · exact .cons (shadows_releaseIf browser _ fun _ => rfl)
        (.cons (shadows_releaseIf browser _ fun _ => rfl) .nil)
    · exact .act (fun _ => rfl) fun _ => .done _
  have hphase : (w.map unrecorded).shared.phase = w.shared.phase := rfl
  rw [hphase]
  cases w.shared.phase with
  | closed | closing => exact .done _
  | idle | launching | active => exact hclose

/-- A command of those that open and close is entered, and its success too. -/
theorem life_ask {command : Command} (isVital : command.isVital) (w : World (Owned (Ledger δ))) :
    let ended := (Session.ownedAsk browser.recorded command Reply.toUnit).runToEnd w
    (ended.1.isOk = true ∧
      lifeOf ended.2.shared = (lifeOf w.shared).enter [.given command, .granted command]) ∨
    (ended.1.isOk = false ∧ lifeOf ended.2.shared = (lifeOf w.shared).enter [.given command]) := by
  have hgiven : vital [.given command] = [.given command] := by
    simp [vital, Entry.command, isVital]
  have hgranted : vital [.granted command] = [.granted command] := by
    simp [vital, Entry.command, isVital]
  have hfinish (c : Call δ) (later : World (Owned (Ledger δ)))
      (entered : lifeOf later.shared = (lifeOf w.shared).enter [.given command]) :
      let ended := ((Session.finishCall .owned (c.recorded command)).bind
        fun answer => .done (answer.map Reply.toUnit)).runToEnd later
      (ended.1.isOk = true ∧
        lifeOf ended.2.shared = (lifeOf w.shared).enter [.given command, .granted command]) ∨
      (ended.1.isOk = false ∧
        lifeOf ended.2.shared = (lifeOf w.shared).enter [.given command]) := by
    simp only [Session.finishCall, Routine.bind, Routine.runToEnd, Call.recorded,
      Session.Lens.owned, World.apply]
    cases houtcome : (c.finish later.clock later.shared.browser.browser).1.outcome with
    | ok reply =>
        refine .inl ⟨rfl, ?_⟩
        have hbefore := congrArg (Life.enter · [.granted command]) entered
        simp only [Life.enter, lifeOf, List.append_assoc, vital_append, hgranted] at hbefore ⊢
        exact hbefore
    | error e => exact .inr ⟨rfl, entered⟩
  simp only [Session.ownedAsk, Session.ask, Session.call, Routine.bind, Routine.runToEnd]
  have hentered (d : δ) : lifeOf { w.shared with
      browser := (⟨d, w.shared.browser.entries ++ [.given command]⟩ : Ledger δ) } =
        (lifeOf w.shared).enter [.given command] := by
    simp only [lifeOf, Life.enter, vital_append, hgiven]
  cases hpause : (browser.call command w.clock w.shared.browser.browser).1.pause with
  | none =>
      simp only [Browser.recorded, Session.Lens.owned, Call.recorded, hpause]
      exact hfinish _ _ (hentered _)
  | some micros =>
      simp only [Browser.recorded, Session.Lens.owned, Call.recorded, hpause]
      cases micros with
      | zero => exact hfinish _ _ (hentered _)
      | succ micros => exact hfinish _ _ (hentered _)

/-- A routine gives a command that opens or closes the browser, if what the session holds allows it.
With its success the session holds something else. -/
def Tries (allows : Holding → Prop) (command : Command) (change : Holding → Holding)
    (r : Command.Routine (Owned (Ledger δ)) Unit) : Prop :=
  ∀ w, allows (lifeOf w.shared).holding →
    let ended := r.runToEnd w
    let before := lifeOf w.shared
    (ended.1.isOk = true ∧ lifeOf ended.2.shared =
      ⟨change before.holding, before.entries ++ [.given command, .granted command]⟩) ∨
    (ended.1.isOk = false ∧ lifeOf ended.2.shared = before.enter [.given command])

theorem tries_obtain {command : Command} (isVital : command.isVital)
    {keep : Owned (Ledger δ) → Owned (Ledger δ)} {change : Holding → Holding}
    (kept : ∀ s, lifeOf (keep s) = { lifeOf s with holding := change (lifeOf s).holding }) :
    Tries (fun _ => True) command change (Session.obtain browser.recorded command keep) := by
  intro w _
  have hask := life_ask browser isVital w
  simp only [Session.obtain, Routine.runToEnd_bind]
  cases hanswer : (Session.ownedAsk browser.recorded command Reply.toUnit).runToEnd w with
  | mk answer later =>
      rw [hanswer] at hask
      cases answer with
      | ok _ =>
          obtain ⟨-, entered⟩ | ⟨impossible, -⟩ := hask
          · refine .inl ⟨rfl, ?_⟩
            exact (kept later.shared).trans (by rw [entered]; rfl)
          · cases impossible
      | error e =>
          obtain ⟨impossible, -⟩ | ⟨-, entered⟩ := hask
          · cases impossible
          · exact .inr ⟨rfl, entered⟩

theorem tries_releaseIf {command : Command} (isVital : command.isVital)
    {allows : Holding → Prop} {holds : Owned (Ledger δ) → Bool}
    (held : ∀ s, allows (lifeOf s).holding → holds s = true) :
    Tries allows command id (Session.releaseIf browser.recorded holds command) := by
  intro w allowed
  have hgiven : (Session.releaseIf browser.recorded holds command).runToEnd w =
      (Session.ownedAsk browser.recorded command Reply.toUnit).runToEnd w := by
    change Routine.runToEnd (if holds w.shared then _ else _) w = _
    rw [if_pos (held w.shared allowed)]
  rw [hgiven]
  exact life_ask browser isVital w

/-- Routines that are tried one after the other, up to the first whose command is not granted. -/
theorem life_steps {allows : Holding → Prop} {parts : List (Command × (Holding → Holding))}
    {routines : List (Command.Routine (Owned (Ledger δ)) Unit)}
    (tries : List.Forall₂ (fun part r => Tries allows part.1 part.2 r) parts routines)
    (allowed : ∀ part ∈ parts, ∀ holding, allows holding → allows (part.2 holding))
    (w : World (Owned (Ledger δ))) (start : allows (lifeOf w.shared).holding) :
    let ended := (Session.steps routines).runToEnd w
    let life := lifeOf ended.2.shared
    ∃ n ≤ parts.length, ended.1.isOk = decide (n = parts.length) ∧
      life.entries = (lifeOf w.shared).entries ++ tried (parts.map Prod.fst) n ∧
      (n = parts.length →
        life.holding = parts.foldl (fun h part => part.2 h) (lifeOf w.shared).holding) := by
  induction tries generalizing w with
  | nil =>
      refine ⟨0, Nat.le_refl 0, rfl, ?_, fun _ => rfl⟩
      exact (List.append_nil _).symm
  | @cons part routine parts routines first _ ih =>
      have hfirst := first w start
      simp only [Session.steps, Routine.runToEnd_bind]
      cases hran : routine.runToEnd w with
      | mk answer later =>
          rw [hran] at hfirst
          cases answer with
          | error e =>
              obtain ⟨impossible, -⟩ | ⟨-, entered⟩ := hfirst
              · cases impossible
              · refine ⟨0, Nat.zero_le _, rfl, ?_, nofun⟩
                exact congrArg Life.entries entered
          | ok _ =>
              obtain ⟨-, entered⟩ | ⟨impossible, -⟩ := hfirst
              swap
              · cases impossible
              simp only at entered
              have hnow : allows (lifeOf later.shared).holding := by
                rw [entered]
                exact allowed part List.mem_cons_self _ start
              obtain ⟨n, bound, answered, entries, holding⟩ :=
                ih (fun part member => allowed part (List.mem_cons_of_mem _ member)) later hnow
              refine ⟨n + 1, Nat.succ_le_succ bound, ?_, ?_, fun all => ?_⟩
              · simpa using answered
              · simpa [entered, tried] using entries
              · simpa [entered] using holding (Nat.succ.inj all)

/-- How what is held changes with the commands of a launch. -/
def gains : List (Holding → Holding) :=
  [fun h => { h with hasDriver := true }, fun h => { h with hasBrowser := true },
    fun h => { h with hasContext := true }, fun h => { h with hasPage := true, phase := .active }]

theorem tries_acquisitions (window : Window) :
    List.Forall₂ (fun part r => Tries (fun _ => True) part.1 part.2 r)
      ((acquiring window).zip gains) (Session.acquisitions browser.recorded window) :=
  .cons (tries_obtain browser rfl fun _ => rfl) (.cons (tries_obtain browser rfl fun _ => rfl)
    (.cons (tries_obtain browser rfl fun _ => rfl)
      (.cons (tries_obtain browser rfl fun _ => rfl) .nil)))

theorem tries_releases :
    List.Forall₂ (fun part r => Tries (fun h => h.hasBrowser ∧ h.hasDriver) part.1 part.2 r)
      (releasing.map (·, id)) (Session.releases browser.recorded) :=
  .cons (tries_releaseIf browser rfl fun _ held => held.1)
    (.cons (tries_releaseIf browser rfl fun _ held => held.2) .nil)

/-- A session that has its browser. -/
def Holding.complete : Holding := ⟨.active, true, true, true, true⟩

/-- A session that has given its browser back. -/
def Holding.closed : Holding := { phase := .closed }

/-- The world with another phase of its session. -/
def inPhase (phase : Phase) (w : World (Owned δ)) : World (Owned δ) :=
  w.apply { shared := { w.shared with phase } }

theorem runToEnd_setOwned (change : Owned δ → Owned δ) (next : Unit → Routine (Owned δ) α)
    (w : World (Owned δ)) :
    ((Session.setOwned change).bind next).runToEnd w =
      (next ()).runToEnd (w.apply { shared := change w.shared }) := rfl

theorem runToEnd_launch (window : Window) {w : World (Owned δ)}
    (inactive : w.shared.phase ≠ .active) :
    (Session.launch browser window).runToEnd w =
      match (Session.steps (Session.acquisitions browser window)).runToEnd
          (inPhase .launching w) with
      | (.ok (), later) => (.ok (), later)
      | (.error e, later) => (.error e, inPhase .idle later) := by
  change Routine.runToEnd (if w.shared.phase = .active then _ else _) w = _
  rw [if_neg inactive, runToEnd_setOwned, Routine.runToEnd_bind]
  change Routine.runToEnd _ (Routine.runToEnd _ (inPhase .launching w)).2 = _
  rw [inPhase]
  rcases (Session.steps (Session.acquisitions browser window)).runToEnd _
    with ⟨_ | _, later⟩ <;> rfl

theorem runToEnd_close {w : World (Owned δ)} (notClosing : w.shared.phase ≠ .closing)
    (notClosed : w.shared.phase ≠ .closed) :
    let later := ((Session.steps (Session.releases browser)).runToEnd (inPhase .closing w)).2
    (Session.close browser).runToEnd w =
      ((), later.apply { shared := { phase := .closed, browser := later.shared.browser } }) := by
  have hworld : (Routine.world : Routine (Owned δ) _).runToEnd w = (w, w) := rfl
  rw [Session.close, Routine.runToEnd_bind, hworld]
  cases hphase : w.shared.phase with
  | closing => exact absurd hphase notClosing
  | closed => exact absurd hphase notClosed
  | idle | launching | active =>
      simp only [Routine.runToEnd_bind]
      rfl

/-- A session that is closed already stays as it is. -/
theorem runToEnd_close_of_closed {w : World (Owned δ)} (closed : w.shared.phase = .closed) :
    (Session.close browser).runToEnd w = ((), w) := by
  have hworld : (Routine.world : Routine (Owned δ) _).runToEnd w = (w, w) := rfl
  rw [Session.close, Routine.runToEnd_bind, hworld]
  simp only [closed]
  rfl

/-- A launch opens the session exactly if all four of its commands are granted. Else the session is
idle, whatever it holds of them. -/
theorem life_launch (window : Window) {w : World (Owned (Ledger δ))}
    (inactive : w.shared.phase ≠ .active) :
    let ended := (Session.launch browser.recorded window).runToEnd w
    let life := lifeOf ended.2.shared
    ∃ n ≤ 4, ended.1.isOk = decide (n = 4) ∧
      life.entries = (lifeOf w.shared).entries ++ tried (acquiring window) n ∧
      (n = 4 → life.holding = .complete) ∧ (n ≠ 4 → life.holding.phase = .idle) := by
  obtain ⟨n, bound, answered, entries, holding⟩ :=
    life_steps (tries_acquisitions browser window) (fun _ _ _ _ => trivial)
      (inPhase .launching w) trivial
  rw [runToEnd_launch browser.recorded window inactive]
  refine ⟨n, bound, ?_⟩
  cases hran : (Session.steps (Session.acquisitions browser.recorded window)).runToEnd
      (inPhase .launching w) with
  | mk answer later =>
      rw [hran] at answered entries holding
      cases answer with
      | ok _ =>
          have hall : n = 4 := of_decide_eq_true answered.symm
          exact ⟨answered, entries, fun _ => holding hall, absurd hall⟩
      | error e =>
          have hfailed : n ≠ 4 := of_decide_eq_false answered.symm
          exact ⟨answered, entries, fun all => absurd all hfailed, fun _ => rfl⟩

/-- A session that has its browser gives it back. -/
theorem life_close {w : World (Owned (Ledger δ))}
    (complete : (lifeOf w.shared).holding = .complete) :
    ∃ n ≤ 2, lifeOf ((Session.close browser.recorded).runToEnd w).2.shared =
      ⟨.closed, (lifeOf w.shared).entries ++ tried releasing n⟩ := by
  have hstart : (lifeOf (inPhase .closing w).shared).holding =
      { Holding.complete with phase := .closing } :=
    congrArg (fun h : Holding => { h with phase := .closing }) complete
  have hheld : (lifeOf (inPhase .closing w).shared).holding.hasBrowser ∧
      (lifeOf (inPhase .closing w).shared).holding.hasDriver := by
    rw [hstart]
    exact ⟨rfl, rfl⟩
  have hallowed (part : Command × (Holding → Holding)) (member : part ∈ releasing.map (·, id))
      (h : Holding) (held : h.hasBrowser ∧ h.hasDriver) :
      (part.2 h).hasBrowser ∧ (part.2 h).hasDriver := by
    obtain ⟨command, -, rfl⟩ := List.mem_map.mp member
    exact held
  obtain ⟨n, bound, -, entries, -⟩ :=
    life_steps (tries_releases browser) hallowed (inPhase .closing w) hheld
  have active : w.shared.phase = .active := congrArg Holding.phase complete
  rw [runToEnd_close browser.recorded (by rw [active]; nofun) (by rw [active]; nofun)]
  exact ⟨n, bound, congrArg (Life.mk .closed) entries⟩

/-- What a use may do to the life of an open browser: leave it alone, or close it early. -/
inductive Leaves (before : Life) : Life → Prop where
  | alone : Leaves before before
  | closed (n : Nat) (bound : n ≤ 2) :
      Leaves before ⟨.closed, before.entries ++ tried releasing n⟩

theorem leaves_close {w : World (Owned (Ledger δ))}
    (complete : (lifeOf w.shared).holding = .complete) :
    Leaves (lifeOf w.shared) (lifeOf ((Session.close browser.recorded).runToEnd w).2.shared) := by
  obtain ⟨n, bound, hclosed⟩ := life_close browser complete
  exact hclosed ▸ .closed n bound

/-- All that an opened session enters: the commands of its launch and, if all of them are granted,
those of its close. -/
theorem life_opened (window : Window)
    {use : World (Owned (Ledger δ)) → α × World (Owned (Ledger δ))}
    (leaves : ∀ w, (lifeOf w.shared).holding = .complete →
      Leaves (lifeOf w.shared) (lifeOf (use w).2.shared))
    (w : World (Owned (Ledger δ))) :
    let ended := Session.opened browser.recorded window use w
    ∃ n ≤ 4, ∃ m ≤ 2, ended.1.isOk = decide (n = 4) ∧
      vital ended.2.shared.browser.entries = vital w.shared.browser.entries ++
        tried (acquiring window) n ++ if n = 4 then tried releasing m else [] := by
  obtain ⟨n, bound, answered, entries, complete, -⟩ := life_launch browser window
    (w := { w with shared := Owned.fresh w.shared.browser }) nofun
  have hbefore : (lifeOf (Owned.fresh w.shared.browser)).entries =
      vital w.shared.browser.entries := rfl
  simp only [hbefore] at entries
  simp only [Session.opened]
  refine ⟨n, bound, ?_⟩
  cases hlaunch : (Session.launch browser.recorded window).runToEnd
      { w with shared := Owned.fresh w.shared.browser } with
  | mk answer launched =>
      rw [hlaunch] at answered entries complete
      cases answer with
      | error e =>
          have hfailed : n ≠ 4 := of_decide_eq_false answered.symm
          refine ⟨0, Nat.zero_le 2, answered, ?_⟩
          rw [if_neg hfailed, List.append_nil]
          exact entries
      | ok _ =>
          have hall : n = 4 := of_decide_eq_true answered.symm
          have hcomplete := complete hall
          have hclosed : ∃ m ≤ 2, lifeOf ((Session.close browser.recorded).runToEnd
              (use launched).2).2.shared =
                ⟨.closed, (lifeOf launched.shared).entries ++ tried releasing m⟩ := by
            have hleaves := leaves launched hcomplete
            generalize hlater : lifeOf (use launched).2.shared = later at hleaves
            cases hleaves with
            | alone =>
                obtain ⟨m, bound, hclosed⟩ := life_close browser (hlater ▸ hcomplete)
                rw [hlater] at hclosed
                exact ⟨m, bound, hclosed⟩
            | closed m bound =>
                have hclosed := congrArg (·.holding.phase) hlater
                rw [runToEnd_close_of_closed browser.recorded hclosed]
                exact ⟨m, bound, hlater⟩
          obtain ⟨m, bound, hlife⟩ := hclosed
          refine ⟨m, bound, answered, ?_⟩
          have hentries := congrArg Life.entries hlife
          simp only at entries hentries
          rw [if_pos hall, ← entries]
          exact hentries

/-- Opening is the same with a ledger and without, if the use is. -/
theorem opened_map (window : Window)
    {use' : World (Owned (Ledger δ)) → α × World (Owned (Ledger δ))}
    {use : World (Owned δ) → α × World (Owned δ)}
    (same : ∀ w, use (w.map unrecorded) = ((use' w).1, (use' w).2.map unrecorded))
    (w : World (Owned (Ledger δ))) :
    Session.opened browser window use (w.map unrecorded) =
      ((Session.opened browser.recorded window use' w).1,
        (Session.opened browser.recorded window use' w).2.map unrecorded) := by
  have hlaunch : (Session.launch browser window).runToEnd
      { w.map unrecorded with shared := Owned.fresh (w.map unrecorded).shared.browser } = _ :=
    (shadows_launch browser window).runToEnd_eq { w with shared := Owned.fresh w.shared.browser }
  have hclose (later : World (Owned (Ledger δ))) := (shadows_close browser).runToEnd_eq later
  simp only [Session.opened]
  rw [hlaunch]
  rcases (Session.launch browser.recorded window).runToEnd _ with ⟨_ | _, launched⟩
  · rfl
  · simp only [same, hclose]

end

/-- Everything that was started or launched was given back, once. -/
def GivenBack (window : Window) (entries : List Entry) : Prop :=
  (.granted (.launch !window.headed) ∈ entries → entries.count (.given .closeBrowser) = 1) ∧
    (.granted .start ∈ entries → entries.count (.given .stop) = 1)

instance (window : Window) (entries : List Entry) : Decidable (GivenBack window entries) :=
  inferInstanceAs (Decidable (_ ∧ _))

/-- What the ledger says after a session that was or was not open. -/
structure Accounts (window : Window) (opened : Bool) (entries : List Entry) : Prop where
  /-- The commands come in order, each part of them up to the first that is not granted. -/
  course : ∃ n ≤ 4, ∃ m ≤ 2, opened = decide (n = 4) ∧
    entries = tried (acquiring window) n ++ if n = 4 then tried releasing m else []
  acquired : opened = true → entries.count (.granted .start) = 1 ∧
    entries.count (.granted (.launch !window.headed)) = 1
  closed : entries.count (.given .closeBrowser) = if opened then 1 else 0
  stopped : entries.count (.given .stop) =
    if opened then entries.count (.granted .closeBrowser) else 0
  givenBack : GivenBack window entries ↔ .granted .start ∉ entries ∨
    opened = true ∧ .granted .closeBrowser ∈ entries

/-- The course of the commands decides all that is counted. -/
theorem Accounts.of_course {window : Window} {opened : Bool} {entries : List Entry}
    (course : ∃ n ≤ 4, ∃ m ≤ 2, opened = decide (n = 4) ∧
      entries = tried (acquiring window) n ++ if n = 4 then tried releasing m else []) :
    Accounts window opened entries := by
  obtain ⟨n, bound, m, bound', rfl, rfl⟩ := course
  refine ⟨⟨n, bound, m, bound', rfl, rfl⟩, ?_, ?_, ?_, ?_⟩ <;>
    interval_cases n <;> interval_cases m <;>
      simp [tried, acquiring, releasing, GivenBack]

end BrowserSteps.Ledger
