import BrowserSteps.Proofs.Routine.Custody
import BrowserSteps.Proofs.Run.Congruence
import BrowserSteps.Session.Exclusive

/-!
The traffic between a session and its browser. A browser that is logged notes when a command begins
and when it ends, and for whom. A session that lets one command at a time through gives none while
another is under way: whoever holds the lock finds nothing under way, and leaves nothing under way
when it gives the lock back, also after a failure and between the commands of one operation.
-/

namespace BrowserSteps

variable {δ α : Type}

namespace Traffic

/-- What is noted. Whoever gives commands under a name of its own has joined before; the name is the
place of that event. -/
inductive Event where
  | joined
  | begun (who : Option Nat) (command : Command)
  | ended (who : Option Nat) (command : Command)
  deriving DecidableEq

/-- In whose name a command was given. -/
def Event.who : Event → Option Nat
  | .joined => none
  | .begun who _ | .ended who _ => who

/-- The commands that are under way after some events. -/
def underWay (events : List Event) : List (Option Nat × Command) :=
  events.foldl (fun commands event => match event with
    | .joined => commands
    | .begun who command => commands ++ [(who, command)]
    | .ended who command => commands.erase (who, command)) []

/-- At no instant more than one command is under way, and whoever gives one in its own name has
joined before. -/
structure InTurn (events : List Event) : Prop where
  alone : ∀ earlier, earlier <+: events → (underWay earlier).length ≤ 1
  named : ∀ earlier event, earlier ++ [event] <+: events →
    ∀ n ∈ event.who, earlier[n]? = some .joined

/-- Nothing is under way. -/
structure Idle (events : List Event) : Prop where
  inTurn : InTurn events
  nothing : underWay events = []

theorem idle_nil : Idle [] := by
  refine ⟨⟨fun earlier before => ?_, fun earlier event before => ?_⟩, rfl⟩
  · rw [List.prefix_nil.mp before]
    exact Nat.zero_le 1
  · simp at before

theorem underWay_concat (events : List Event) (event : Event) :
    underWay (events ++ [event]) = match event with
      | .joined => underWay events
      | .begun who command => underWay events ++ [(who, command)]
      | .ended who command => (underWay events).erase (who, command) := by
  rw [underWay, List.foldl_append]
  rfl

theorem InTurn.concat {events : List Event} (h : InTurn events) {event : Event}
    (alone : (underWay (events ++ [event])).length ≤ 1)
    (named : ∀ n ∈ event.who, events[n]? = some .joined) : InTurn (events ++ [event]) := by
  refine ⟨fun earlier before => ?_, fun earlier last before => ?_⟩
  · rcases List.prefix_concat_iff.mp before with rfl | before
    · exact alone
    · exact h.alone earlier before
  · rcases List.prefix_concat_iff.mp before with same | before
    · obtain ⟨rfl, hlast⟩ := List.append_inj' same rfl
      obtain rfl := List.singleton_inj.mp hlast
      exact named
    · exact h.named earlier last before

theorem underWay_joins {events new : List Event} (joins : ∀ event ∈ new, event = .joined) :
    underWay (events ++ new) = underWay events := by
  induction new generalizing events with
  | nil => rw [List.append_nil]
  | cons event rest ih =>
      obtain rfl := joins event List.mem_cons_self
      rw [List.append_cons, ih fun event member => joins event (List.mem_cons_of_mem _ member),
        underWay_concat]

theorem InTurn.joined {events : List Event} (h : InTurn events) : InTurn (events ++ [.joined]) := by
  refine h.concat ?_ nofun
  rw [underWay_concat]
  exact h.alone events (List.prefix_refl events)

/-- What is added to the events while somebody waits. Whoever holds the lock sees others only join; a
command is given only in a name that is allowed. What was in turn stays so. -/
def Adds (allowed : Option Nat → Prop) (holds : Bool) (before after : List Event) : Prop :=
  ∃ new, after = before ++ new ∧ (holds = true → ∀ event ∈ new, event = .joined) ∧
    (∀ event ∈ new, event = .joined ∨ allowed event.who) ∧ (InTurn before → InTurn after)

section

variable {allowed : Option Nat → Prop} {holds : Bool} {before after last : List Event}

theorem Adds.refl (allowed : Option Nat → Prop) (holds : Bool) (events : List Event) :
    Adds allowed holds events events :=
  ⟨[], (List.append_nil events).symm, fun _ => List.forall_mem_nil _, List.forall_mem_nil _, id⟩

theorem Adds.trans (h : Adds allowed holds before after) (h' : Adds allowed holds after last) :
    Adds allowed holds before last := by
  obtain ⟨new, rfl, joins, named, keeps⟩ := h
  obtain ⟨more, rfl, joins', named', keeps'⟩ := h'
  refine ⟨new ++ more, List.append_assoc .., fun held => ?_, ?_, keeps' ∘ keeps⟩
  · exact List.forall_mem_append.mpr ⟨joins held, joins' held⟩
  · exact List.forall_mem_append.mpr ⟨named, named'⟩

theorem Adds.of_holds (h : Adds allowed true before after) : Adds allowed false before after := by
  obtain ⟨new, rfl, joins, named, keeps⟩ := h
  exact ⟨new, rfl, nofun, named, keeps⟩

theorem Adds.of_allowed {more : Option Nat → Prop} (h : Adds allowed holds before after)
    (hmore : ∀ who, allowed who → more who) : Adds more holds before after := by
  obtain ⟨new, rfl, joins, named, keeps⟩ := h
  exact ⟨new, rfl, joins, fun event member => (named event member).imp_right (hmore _), keeps⟩

theorem Adds.length_le (h : Adds allowed holds before after) : before.length ≤ after.length := by
  obtain ⟨new, rfl, -⟩ := h
  rw [List.length_append]
  exact Nat.le_add_right _ _

theorem Adds.join (allowed : Option Nat → Prop) (holds : Bool) (events : List Event) :
    Adds allowed holds events (events ++ [.joined]) :=
  ⟨[.joined], rfl, fun _ => by simp, by simp, InTurn.joined⟩

theorem Adds.underWay_eq (h : Adds allowed true before after) :
    underWay after = underWay before := by
  obtain ⟨new, rfl, joins, -, -⟩ := h
  exact underWay_joins (joins rfl)

theorem Adds.inTurn (h : Adds allowed holds before after) (inTurn : InTurn before) :
    InTurn after := by
  obtain ⟨new, rfl, -, -, keeps⟩ := h
  exact keeps inTurn

theorem Adds.idle (h : Adds allowed true before after) (idle : Idle before) : Idle after :=
  ⟨h.inTurn idle.inTurn, h.underWay_eq.trans idle.nothing⟩

theorem Adds.getElem? (h : Adds allowed holds before after) {n : Nat} {event : Event}
    (at_n : before[n]? = some event) : after[n]? = some event := by
  obtain ⟨new, rfl, -⟩ := h
  rw [List.getElem?_append_left (List.getElem?_eq_some_iff.mp at_n).1, at_n]

end

/-- A name that is given after these events. -/
def New (events : List Event) (who : Option Nat) : Prop := ∃ n ∈ who, events.length ≤ n

/-- Nobody has joined in this name by then, if it is one. -/
def Unused (events : List Event) (who : Option Nat) : Prop := ∀ n ∈ who, events.length ≤ n

theorem New.unused {events : List Event} {who : Option Nat} (h : New events who) :
    Unused events who := by
  obtain ⟨n, rfl, since⟩ := h
  rintro m ⟨⟩
  exact since

theorem unused_of_none {events : List Event} {who : Option Nat} (unnamed : who = none) :
    Unused events who := by
  subst unnamed
  exact nofun

/-- How the traffic goes on after some events: in names that are given later, or in nobody's. -/
abbrev Continues (before after : List Event) : Prop := Adds (Unused before) false before after

theorem Continues.trans {before after last : List Event} (h : Continues before after)
    (h' : Continues after last) : Continues before last :=
  Adds.trans h (h'.of_allowed fun _ unused n hn => Nat.le_trans h.length_le (unused n hn))

/-- Commands may be given in this name: it is allowed, and whoever has it has joined. -/
structure Named (allowed : Option Nat → Prop) (who : Option Nat) (events : List Event) : Prop where
  allowed : allowed who
  joined : ∀ n ∈ who, events[n]? = some .joined

section

variable {allowed : Option Nat → Prop} {who : Option Nat} {holds : Bool} {before after : List Event}
  {command : Command}

theorem Named.mono (h : Named allowed who before) (adds : Adds allowed holds before after) :
    Named allowed who after :=
  ⟨h.allowed, fun n hn => adds.getElem? (h.joined n hn)⟩

theorem Idle.begins (h : Idle before) (command : Command) (named : Named allowed who before) :
    Adds allowed false before (before ++ [.begun who command]) ∧
      underWay (before ++ [.begun who command]) = [(who, command)] := by
  have hunder : underWay (before ++ [.begun who command]) = [(who, command)] := by
    rw [underWay_concat]
    simp [h.nothing]
  refine ⟨⟨_, rfl, nofun, ?_, fun inTurn => inTurn.concat ?_ named.joined⟩, hunder⟩
  · exact List.forall_mem_singleton.mpr (.inr named.allowed)
  · rw [hunder]
    exact Nat.le_refl 1

theorem Idle.ends (inTurn : InTurn before) (alone : underWay before = [(who, command)])
    (named : Named allowed who before) :
    Adds allowed false before (before ++ [.ended who command]) ∧
      Idle (before ++ [.ended who command]) := by
  have hunder : underWay (before ++ [.ended who command]) = [] := by
    rw [underWay_concat]
    simp [alone]
  have hturn : InTurn (before ++ [.ended who command]) := by
    refine inTurn.concat ?_ named.joined
    rw [hunder]
    exact Nat.zero_le 1
  refine ⟨⟨_, rfl, nofun, ?_, fun _ => hturn⟩, hturn, hunder⟩
  exact List.forall_mem_singleton.mpr (.inr named.allowed)

end

end Traffic

/-- The state of a browser, and what has been noted of its traffic. -/
structure Traffic (δ : Type) where
  browser : δ
  events : List Traffic.Event := []

/-- A call that notes its end. -/
def Call.logged (c : Call δ) (who : Option Nat) (command : Command) : Call (Traffic δ) where
  pause := c.pause
  finish now d :=
    let ended := c.finish now d.browser
    (ended.1, ⟨ended.2, d.events ++ [.ended who command]⟩)

/-- A browser that notes its commands, in somebody's name. -/
def Browser.logged (browser : Browser δ) (who : Option Nat) : Browser (Traffic δ) where
  call command now d :=
    let called := browser.call command now d.browser
    (called.1.logged who command, ⟨called.2, d.events ++ [.begun who command]⟩)

namespace Traffic

/-- The state of a session without what has been noted. -/
def unlogged (s : Owned (Traffic δ)) : Owned δ := { s with browser := s.browser.browser }

/-- The state of a session of which nothing has been noted. -/
def unnoted (s : Owned δ) : Owned (Traffic δ) := { s with browser := ⟨s.browser, []⟩ }

/-- What has been noted so far. -/
def noted (w : World (Owned (Traffic δ))) : List Event := w.shared.browser.events

/-- The traffic between a world and a later one: it goes on, and if what led there was not cut then it
leaves nothing under way. -/
structure Leads (uncut : Prop) (w later : World (Owned (Traffic δ))) : Prop where
  continues : Continues (noted w) (noted later)
  idle : uncut → Idle (noted later)

section

variable {uncut done : Prop} {w later last : World (Owned (Traffic δ))}

theorem Leads.refl (uncut : Prop) (idle : Idle (noted w)) : Leads uncut w w :=
  ⟨.refl _ _ _, fun _ => idle⟩

theorem Leads.imp (h : Leads uncut w later) (himp : done → uncut) : Leads done w later :=
  ⟨h.continues, fun ended => h.idle (himp ended)⟩

end

/-- The custody of the traffic: nothing is under way while nobody holds the lock, and only its holder
begins and ends commands. -/
def custody (δ : Type) (allowed : Option Nat → Prop) : Routine.Custody (Owned (Traffic δ)) where
  rely holds w later := Adds allowed holds (noted w) (noted later)
  free w := Idle (noted w)
  brief := False
  rely_refl holds w := .refl allowed holds (noted w)
  rely_trans := .trans
  rely_passTo holds w _ _ := .refl allowed holds (noted w)
  rely_of_holds := Adds.of_holds
  free_of_rely := Adds.idle

/-- What a routine knows of the traffic: its name, and that nothing is under way if it holds the
lock. -/
structure Knows (allowed : Option Nat → Prop) (who : Option Nat) (holds : Bool)
    (w : World (Owned (Traffic δ))) : Prop where
  named : Named allowed who (noted w)
  idle : holds = true → Idle (noted w)

/-- A routine in a logged session: it does what it does in the session itself, and leaves the traffic
as it found it. -/
structure Conducts (allowed : Option Nat → Prop) (who : Option Nat) (holds : Bool)
    (r' : Routine (Owned (Traffic δ)) α) (r : Routine (Owned δ) α) : Prop where
  shadows : r'.Shadows unlogged r
  keeps : ∀ w, Knows allowed who holds w →
    r'.Keeps (custody δ allowed) (fun _ still last => still = holds ∧ Knows allowed who holds last)
      holds w

section

variable {allowed : Option Nat → Prop} {who : Option Nat} {holds : Bool}

theorem Knows.mono {w later : World (Owned (Traffic δ))} (h : Knows allowed who holds w)
    (hrely : (custody δ allowed).rely holds w later) : Knows allowed who holds later := by
  refine ⟨h.named.mono hrely, fun held => ?_⟩
  subst held
  exact hrely.idle (h.idle rfl)

theorem conducts_congruence :
    Routine.Congruence (unlogged : Owned (Traffic δ) → Owned δ) (Conducts allowed who holds) where
  done value := ⟨.done value, fun _ knows => ⟨rfl, knows⟩⟩
  bind h hf := by
    refine ⟨h.shadows.bind fun value => (hf value).shadows, fun w knows => ?_⟩
    refine (h.keeps w knows).bind ?_
    rintro value _ later ⟨rfl, knows⟩
    exact (hf value).keeps later knows
  pause micros _ _ h :=
    ⟨.pause micros h.shadows,
      fun w knows => ⟨False.elim, fun later hlater => h.keeps later (knows.mono hlater.1)⟩⟩
  world h := by
    refine ⟨.world fun w => (h w).shadows, fun w knows => ⟨.refl allowed _ _, ?_⟩⟩
    exact (h w).keeps _ knows

theorem keeps_finishCall (c : Call δ) (command : Command) (read : Reply → α)
    {w : World (Owned (Traffic δ))} (inTurn : InTurn (noted w))
    (alone : underWay (noted w) = [(who, command)]) (named : Named allowed who (noted w)) :
    ((Session.finishCall .owned (c.logged who command)).bind
        fun answer => .done (answer.map read)).Keeps (custody δ allowed)
      (fun _ still last => still = true ∧ Knows allowed who true last) true w := by
  obtain ⟨adds, idle⟩ := Idle.ends inTurn alone named
  exact ⟨adds, rfl, named.mono adds, fun _ => idle⟩

theorem conducts_ask (browser : Browser δ) (command : Command) (read : Reply → α) :
    Conducts allowed who true (Session.ask (browser.logged who) .owned command read)
      (Session.ask browser .owned command read) := by
  constructor
  · refine .bind (.act (fun w => rfl) fun w => ?_) fun answer => .done _
    have hfinish (c : Call δ) : (Session.finishCall .owned (c.logged who command)).Shadows unlogged
        (Session.finishCall .owned c) := .act (fun _ => rfl) fun _ => .done _
    simp only [Browser.logged, Call.logged, Session.Lens.owned, World.map, unlogged] at hfinish ⊢
    cases (browser.call command w.clock w.shared.browser.browser).1.pause with
    | none => exact hfinish _
    | some micros => exact .pause micros (hfinish _)
  · intro w knows
    have idle := knows.idle rfl
    obtain ⟨adds, alone⟩ := idle.begins command knows.named
    have inTurn := adds.inTurn idle.inTurn
    have named := knows.named.mono adds
    refine ⟨adds, ?_⟩
    simp only [Browser.logged, Call.logged, Session.Lens.owned]
    -- While the command is under way, the others can only join.
    cases (browser.call command w.clock w.shared.browser.browser).1.pause with
    | none => exact keeps_finishCall _ command read inTurn alone named
    | some micros =>
        refine ⟨False.elim, ?_⟩
        rintro later ⟨joins, -⟩
        exact keeps_finishCall _ command read (joins.inTurn inTurn) (joins.underWay_eq.trans alone)
          (named.mono joins)

theorem Conducts.locked {body' : Routine (Owned (Traffic δ)) α} {body : Routine (Owned δ) α}
    (h : Conducts allowed who true body' body) :
    Conducts allowed who false body'.locked body.locked := by
  refine ⟨.acquire (h.shadows.bind fun value => .release (.done value)), fun w knows => ⟨rfl, ?_⟩⟩
  rintro later ⟨hrely, free, -⟩
  refine (h.keeps later ⟨knows.named.mono hrely, fun _ => free⟩).bind ?_
  rintro value _ last ⟨rfl, knows⟩
  exact ⟨rfl, knows.idle rfl, rfl, knows.named, nofun⟩

theorem conducts_onPage {body' : Command.Routine (Owned (Traffic δ)) α}
    {body : Command.Routine (Owned δ) α} (h : Conducts allowed who holds body' body) :
    Conducts allowed who holds (Session.onPage body') (Session.onPage body) := by
  refine conducts_congruence.world fun w => ?_
  change Conducts allowed who holds (if w.shared.isUsable then body' else _)
    (if w.shared.isUsable then body else _)
  split
  · exact h
  · exact conducts_congruence.done _

theorem conducts_withContext (fault : SessionFault) {body' : Command.Routine (Owned (Traffic δ)) α}
    {body : Command.Routine (Owned δ) α} (h : Conducts allowed who holds body' body) :
    Conducts allowed who holds (Session.withContext fault body') (Session.withContext fault body) := by
  refine conducts_congruence.world fun w => ?_
  change Conducts allowed who holds (if w.shared.hasContext then body' else _)
    (if w.shared.hasContext then body else _)
  split
  · exact h
  · exact conducts_congruence.done _

theorem conducts_steps {commands' : List (Command.Routine (Owned (Traffic δ)) Unit)}
    {commands : List (Command.Routine (Owned δ) Unit)}
    (h : List.Forall₂ (Conducts allowed who holds) commands' commands) :
    Conducts allowed who holds (Session.steps commands') (Session.steps commands) := by
  induction h with
  | nil => exact conducts_congruence.done _
  | cons command _ ih =>
      refine conducts_congruence.bind command fun result => ?_
      cases result with
      | ok _ => exact ih
      | error e => exact conducts_congruence.done _

/-- Every command of a session that lets one at a time through leaves the traffic as it found it. -/
theorem related_exclusive (browser : Browser δ) :
    (Session.exclusive (browser.logged who)).Related (Conducts allowed who false)
      (Session.exclusive browser) where
  navigate url := (conducts_onPage (conducts_ask browser _ _)).locked
  find kind value := by
    simp only [Session.exclusive]
    cases Session.selectorText kind value with
    | error fault => exact conducts_congruence.done _
    | ok selector => exact (conducts_onPage (conducts_ask browser _ _)).locked
  children element tag := (conducts_ask browser _ _).locked
  click element := (conducts_ask browser _ _).locked
  setText element value :=
    (conducts_steps (.cons (conducts_ask browser _ _) (.cons (conducts_ask browser _ _) .nil))).locked
  getText element := (conducts_ask browser _ _).locked
  runScript source := (conducts_onPage (conducts_ask browser _ _)).locked
  screenshot := (conducts_onPage (conducts_ask browser _ _)).locked
  throttle latency download upload :=
    conducts_withContext _ (conducts_withContext _ (conducts_onPage (conducts_steps
      (.cons (conducts_ask browser _ _) (.cons (conducts_ask browser _ _) .nil))))).locked

end

end Traffic

end BrowserSteps
