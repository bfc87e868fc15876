import BrowserSteps.Proofs.Keyed
import BrowserSteps.Run.Registry
import Mathlib.Data.List.Sort

/-!
Registering actions. What a registry holds after a sequence of calls is decided by the calls that were not
refused: the last handler and the last information for each action, in the order of the first registrations.
-/

namespace BrowserSteps

variable {η : Type}

/-- A call to register an action: what is given as its handler, if that is one, and what is told of it. -/
structure Registration (η : Type) where
  action : Action
  handler : Option η
  info : Option ActionInfo := none

namespace Registration

/-- What a call brings that is not refused. -/
structure Content (η : Type) where
  action : Action
  handler : η
  info : Option ActionInfo

/-- A call needs a handler, and an action that is not invalid. -/
def content (call : Registration η) : Except Registry.RegisterError (Content η) :=
  match call.handler with
  | none => .error .notHandler
  | some handler =>
    if call.action = .invalid then .error .invalidAction
    else .ok ⟨call.action, handler, call.info⟩

/-- What the calls bring that are not refused. -/
def contents (calls : List (Registration η)) : List (Content η) :=
  calls.filterMap (·.content.toOption)

/-- The handlers that were brought, each under its action. -/
def handlersOf (brought : List (Content η)) : List (Action × η) :=
  brought.map fun content => (content.action, content.handler)

/-- The information that was brought, each under its action. -/
def infosOf (brought : List (Content η)) : List (Action × ActionInfo) :=
  brought.filterMap fun content => content.info.map (content.action, ·)

/-- The actions, in the order in which they came first. -/
def actionsOf (brought : List (Content η)) : List Action := (brought.map (·.action)).eraseDups

/-- What is told of an action: the last information that was brought, or else what is made up. -/
def toldOf (brought : List (Content η)) (action : Action) : ActionInfo :=
  (Keyed.last? action (infosOf brought)).getD (.generated action)

section

variable (calls : List (Registration η)) (call : Registration η) (brought : List (Content η))
  (content : Content η)

theorem contents_concat :
    contents (calls ++ [call]) = contents calls ++ call.content.toOption.toList := by
  cases h : call.content <;> simp [contents, h, Except.toOption]

variable {calls content} in
theorem action_ne_invalid (member : content ∈ contents calls) : content.action ≠ .invalid := by
  obtain ⟨call, -, taken⟩ := List.mem_filterMap.mp member
  unfold Registration.content at taken
  split at taken
  · cases taken
  · split at taken
    · cases taken
    next valid =>
      cases taken
      exact valid

variable {brought} in
theorem mem_actionsOf {action : Action} :
    action ∈ actionsOf brought ↔ ∃ content ∈ brought, content.action = action := by
  rw [actionsOf, List.mem_eraseDups, List.mem_map]

theorem keys_handlersOf : (handlersOf brought).map (·.1) = brought.map (·.action) := by
  rw [handlersOf, List.map_map]
  rfl

theorem actionsOf_eq : actionsOf brought = (Keyed.ofPairs (handlersOf brought)).map (·.1) := by
  rw [Keyed.keys_ofPairs, keys_handlersOf]
  rfl

theorem nodup_actionsOf : (actionsOf brought).Nodup := by
  rw [actionsOf_eq]
  exact Keyed.nodup_ofPairs _

theorem handlersOf_concat :
    handlersOf (brought ++ [content]) = handlersOf brought ++ [(content.action, content.handler)] :=
  List.map_append

/-- A new action comes last. -/
theorem actionsOf_concat :
    actionsOf (brought ++ [content]) =
      if content.action ∈ actionsOf brought then actionsOf brought
      else actionsOf brought ++ [content.action] := by
  rw [actionsOf_eq, actionsOf_eq, handlersOf_concat, Keyed.ofPairs_concat]
  split
  next known => exact Keyed.keys_put_of_mem known _
  next fresh => rw [Keyed.put_of_notMem fresh, List.map_append]; rfl

/-- Information is told from then on; without any, what was told goes on being told. -/
theorem toldOf_concat (action : Action) :
    toldOf (brought ++ [content]) action =
      if content.action = action then content.info.getD (toldOf brought action)
      else toldOf brought action := by
  have hinfos : infosOf (brought ++ [content]) =
      infosOf brought ++ (content.info.map (content.action, ·)).toList := by
    cases h : content.info <;> simp [infosOf, h]
  rw [toldOf, hinfos]
  cases content.info with
  | none => simp [toldOf]
  | some info =>
      rw [Option.map_some, Option.toList_some, Keyed.last?_concat]
      split <;> rfl

/-- Of an action that did not come nothing was told. -/
theorem toldOf_of_notMem {action : Action} (fresh : action ∉ actionsOf brought) :
    toldOf brought action = .generated action := by
  have hnone : Keyed.last? action (infosOf brought) = none := by
    rw [Keyed.last?_eq_none]
    intro told
    obtain ⟨pair, member, rfl⟩ := List.mem_map.mp told
    obtain ⟨content, hcontent, hpair⟩ := List.mem_filterMap.mp member
    obtain ⟨info, -, rfl⟩ := Option.map_eq_some_iff.mp hpair
    exact fresh (mem_actionsOf.mpr ⟨content, hcontent, rfl⟩)
  rw [toldOf, hnone]
  rfl

end

end Registration

namespace Registry

open Registration

/-- The registry after a call. A call that is refused changes nothing. -/
def attempt (r : Registry η) (call : Registration η) : Registry η :=
  match r.register call.action call.handler call.info with
  | .ok later => later
  | .error _ => r

/-- The registry after a sequence of calls. -/
def after (calls : List (Registration η)) (r : Registry η) : Registry η := calls.foldl attempt r

/-- The registry with what a call brings. -/
def enter (r : Registry η) (content : Content η) : Registry η where
  handlers := Keyed.put content.action content.handler r.handlers
  infos :=
    match content.info, r.infos.lookup content.action with
    | some info, _ => Keyed.put content.action info r.infos
    | none, some _ => r.infos
    | none, none => Keyed.put content.action (.generated content.action) r.infos

/-- Whether a call is refused does not depend on the registry. -/
theorem register_eq (r : Registry η) (call : Registration η) :
    r.register call.action call.handler call.info = call.content.map r.enter := by
  unfold register Registration.content
  cases call.handler with
  | none => rfl
  | some handler =>
      simp only
      split <;> rfl

theorem attempt_eq (r : Registry η) (call : Registration η) :
    r.attempt call = call.content.toOption.elim r r.enter := by
  rw [attempt, register_eq]
  cases call.content <;> rfl

/-- What a registry holds that was made of so much. -/
structure Holds (brought : List (Content η)) (r : Registry η) : Prop where
  handlers : r.handlers = Keyed.ofPairs (handlersOf brought)
  actions : r.infos.map (·.1) = actionsOf brought
  told : ∀ action ∈ actionsOf brought, r.infos.lookup action = some (toldOf brought action)

theorem holds_nil : Holds [] ({} : Registry η) := ⟨rfl, rfl, nofun⟩

/-- Putting the information that is told from then on keeps handlers and information in step. -/
theorem Holds.put {brought : List (Content η)} {r : Registry η} (h : Holds brought r)
    (content : Content η) {infos : List (Action × ActionInfo)}
    (put : infos = Keyed.put content.action (toldOf (brought ++ [content]) content.action) r.infos) :
    Holds (brought ++ [content]) ⟨Keyed.put content.action content.handler r.handlers, infos⟩ := by
  subst put
  refine ⟨?_, ?_, ?_⟩
  · rw [handlersOf_concat, Keyed.ofPairs_concat, ← h.handlers]
  · rw [actionsOf_concat, ← h.actions]
    split
    next known => exact Keyed.keys_put_of_mem known _
    next fresh => rw [Keyed.put_of_notMem fresh, List.map_append]; rfl
  · intro action member
    by_cases same : action = content.action
    · subst same
      exact Keyed.lookup_put_self ..
    · rw [Keyed.lookup_put_of_ne same, toldOf_concat, if_neg (Ne.symm same)]
      apply h.told
      rw [actionsOf_concat] at member
      split at member
      · exact member
      · rcases List.mem_append.mp member with old | new
        · exact old
        · exact absurd (List.mem_singleton.mp new) same

theorem Holds.enter {brought : List (Content η)} {r : Registry η} (h : Holds brought r)
    (content : Content η) : Holds (brought ++ [content]) (r.enter content) := by
  apply h.put content
  rw [toldOf_concat, if_pos rfl]
  cases content.info with
  | some info => rfl
  | none =>
      have hkeys : r.infos.lookup content.action = none ↔ content.action ∉ actionsOf brought := by
        rw [Keyed.lookup_eq_none_iff, h.actions]
      cases hlookup : r.infos.lookup content.action with
      | none =>
          rw [Option.getD_none, toldOf_of_notMem brought (hkeys.mp hlookup)]
      | some told =>
          have known : content.action ∈ actionsOf brought := by
            by_contra fresh
            rw [hkeys.mpr fresh] at hlookup
            cases hlookup
          have same := h.told content.action known
          rw [Option.getD_none, Keyed.put_of_lookup same]

theorem holds_after (calls : List (Registration η)) : Holds (contents calls) (after calls {}) := by
  induction calls using List.reverseRecOn with
  | nil => exact holds_nil
  | append_singleton calls call ih =>
      rw [after, List.foldl_concat, attempt_eq, contents_concat]
      cases call.content with
      | error e =>
          change Holds (contents calls ++ []) (after calls {})
          rw [List.append_nil]
          exact ih
      | ok content => exact ih.enter content

section

variable {α : Type} (key : α → String)

theorem keyOrder_trans (a b c : α) (first : decide (key a ≤ key b) = true)
    (second : decide (key b ≤ key c) = true) : decide (key a ≤ key c) = true :=
  decide_eq_true (String.le_trans (of_decide_eq_true first) (of_decide_eq_true second))

theorem keyOrder_total (a b : α) : (decide (key a ≤ key b) || decide (key b ≤ key a)) = true := by
  simpa using String.le_total (key a) (key b)

theorem pairwise_mergeSort_key (all : List α) :
    (all.mergeSort fun a b => key a ≤ key b).Pairwise fun a b => key a ≤ key b := by
  have hpairwise := List.pairwise_mergeSort (keyOrder_trans key) (keyOrder_total key) all
  exact hpairwise.imp fun le => of_decide_eq_true le

/-- Sorting by a key keeps the order of those that have the same one. -/
theorem filter_mergeSort_key (all : List α) (k : String) :
    (all.mergeSort fun a b => key a ≤ key b).filter (key · = k) = all.filter (key · = k) := by
  let sorted := all.mergeSort fun a b => key a ≤ key b
  have inOrder : (all.filter (key · = k)).Pairwise fun a b => decide (key a ≤ key b) = true := by
    apply List.pairwise_of_forall_mem_list
    intro a ha b hb
    have hka := of_decide_eq_true (List.mem_filter.mp ha).2
    have hkb := of_decide_eq_true (List.mem_filter.mp hb).2
    rw [hka, hkb]
    exact decide_eq_true (String.le_refl k)
  have hsublist : (all.filter (key · = k)).Sublist sorted :=
    List.sublist_mergeSort (keyOrder_trans key) (keyOrder_total key) inOrder List.filter_sublist
  have hfiltered : (all.filter (key · = k)).Sublist (sorted.filter (key · = k)) := by
    have hagain := hsublist.filter (key · = k)
    simpa only [List.filter_filter, Bool.and_self] using hagain
  have hperm : sorted.Perm all := List.mergeSort_perm ..
  exact (hfiltered.eq_of_length (hperm.filter _).length_eq.symm).symm

end

/-- What is told of a registry after the calls it was made of. -/
structure Agrees (calls : List (Registration η)) (r : Registry η) : Prop where
  /-- An action is there if a call for it was not refused. -/
  has : ∀ action, r.has action = true ↔ ∃ content ∈ contents calls, content.action = action
  /-- Its handler is that of the last such call. -/
  get? : ∀ action, r.get? action = Keyed.last? action (handlersOf (contents calls))
  invalid : r.has .invalid = false
  /-- The words of the actions that are there, each once and in order. -/
  names : ∀ word, word ∈ r.names ↔ ∃ action, r.has action = true ∧ action.word = word
  distinct : r.names.Nodup
  sorted : r.names.Pairwise (· ≤ ·)
  /-- The actions that are there, each once, have one entry each in the listing. -/
  actions : ∀ action, action ∈ actionsOf (contents calls) ↔ r.has action = true
  once : (actionsOf (contents calls)).Nodup
  listing : r.listAll.Perm ((actionsOf (contents calls)).map (toldOf (contents calls)))
  /-- The listing goes by name, and entries of one name by the first registrations. -/
  byName : r.listAll.Pairwise fun a b => a.name ≤ b.name
  stable : ∀ name, r.listAll.filter (·.name = name) =
    ((actionsOf (contents calls)).map (toldOf (contents calls))).filter (·.name = name)
  /-- A further call is refused without a handler or for the invalid action, and changes nothing then. -/
  refused : ∀ (call : Registration η) (e : RegisterError),
    r.register call.action call.handler call.info = .error e ↔ call.content = .error e
  unchanged : ∀ (call : Registration η) (e : RegisterError),
    r.register call.action call.handler call.info = .error e → r.attempt call = r

theorem word_injective : Function.Injective Action.word := by
  intro a b same
  cases a <;> cases b <;> first | rfl | exact absurd same (by decide)

theorem Holds.agrees {calls : List (Registration η)} {r : Registry η}
    (h : Holds (contents calls) r) : Agrees calls r := by
  have hactions : r.handlers.map (·.1) = actionsOf (contents calls) := by
    rw [h.handlers, actionsOf_eq]
  have once := nodup_actionsOf (contents calls)
  have hhas (action : Action) : r.has action = true ↔ action ∈ actionsOf (contents calls) := by
    rw [has, Option.isSome_iff_ne_none, Ne, Keyed.lookup_eq_none_iff, hactions, not_not]
  have hwords : r.names.Perm ((actionsOf (contents calls)).map Action.word) := by
    have hperm := List.mergeSort_perm (r.handlers.map (·.1.word)) fun a b => decide (a ≤ b)
    rwa [← hactions, List.map_map]
  have hinfos : r.infos.map (·.2) =
      (actionsOf (contents calls)).map (toldOf (contents calls)) := by
    have told := h.told
    rw [← h.actions] at once told ⊢
    exact Keyed.values_eq_map once told
  have hlisting : r.listAll.Perm (r.infos.map (·.2)) := List.mergeSort_perm ..
  constructor
  case has => exact fun action => (hhas action).trans mem_actionsOf
  case get? =>
    intro action
    rw [get?, h.handlers, Keyed.lookup_ofPairs]
  case invalid =>
    rw [← Bool.not_eq_true, hhas, mem_actionsOf]
    rintro ⟨content, member, isInvalid⟩
    exact action_ne_invalid member isInvalid
  case names =>
    intro word
    simp only [hwords.mem_iff, List.mem_map, hhas]
  case distinct => exact hwords.nodup_iff.mpr (once.map word_injective)
  case sorted => exact List.pairwise_mergeSort' (· ≤ ·) _
  case actions => exact fun action => (hhas action).symm
  case once => exact once
  case listing => exact hinfos ▸ hlisting
  case byName => exact pairwise_mergeSort_key ActionInfo.name _
  case stable =>
    intro name
    rw [← hinfos]
    exact filter_mergeSort_key ActionInfo.name _ name
  case refused =>
    intro call e
    rw [register_eq]
    cases call.content <;> simp [Except.map]
  case unchanged =>
    intro call e refused
    rw [attempt, refused]

/-- The calls that make the registry of all actions. -/
def fullCalls (handler : Action → η) : List (Registration η) :=
  (standardInfos ++ waitInfos).map fun (action, info) => ⟨action, some (handler action), some info⟩

theorem full_eq (handler : Action → η) : full handler = after (fullCalls handler) {} := by
  rfl

/-- After any calls, on an empty registry or on the one of all actions, a registry tells of each action what
the calls for it that were not refused brought. -/
theorem registered_after (handler : Action → η) (calls : List (Registration η)) :
    Agrees calls (after calls {}) ∧
      Agrees (fullCalls handler ++ calls) (after calls (full handler)) := by
  have hfull : after calls (full handler) = after (fullCalls handler ++ calls) {} := by
    rw [full_eq, after, after, after, List.foldl_append]
  rw [hfull]
  exact ⟨(holds_after calls).agrees, (holds_after (fullCalls handler ++ calls)).agrees⟩

end Registry

end BrowserSteps
