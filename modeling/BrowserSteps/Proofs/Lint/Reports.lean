import BrowserSteps.Lint
import BrowserSteps.Proofs.Except

/-!
What the checks of a step list report. An issue stands at a step that has its finding, and every
finding of a step becomes an issue; so whether a rule is reported at an index is a matter of the step
there, and for the order of markers also of the steps before it. That holds of the lists whose findings
can all be put into words; of the others nothing is reported.
-/

namespace BrowserSteps.Lint

/-- The checks of a list come to their end. -/
def Complete (steps : List Step) : Prop := ∃ found, issues steps = .ok found

/-- The checks report a rule at an index. -/
def Reports (steps : List Step) (rule : String) (index : Nat) : Prop :=
  ∃ found, issues steps = .ok found ∧ ∃ issue ∈ found, issue.index = index ∧ issue.finding.rule = rule

instance (steps : List Step) (rule : String) (index : Nat) : Decidable (Reports steps rule index) :=
  match h : issues steps with
  | .ok found => decidable_of_iff
      (∃ issue ∈ found, issue.index = index ∧ issue.finding.rule = rule) (by simp [Reports, h])
  | .error _ => isFalse (by simp [Reports, h])

/-- Whether a start marker is pending, in the order of the list, before the step at an index. -/
def pendingAt (steps : List Step) (index : Nat) : Bool :=
  (steps.take index).foldl pendingAfter false

theorem issue_eq_ok_iff {index : Nat} {step : Step} {finding : Finding} {found : Issue} :
    issue index step finding = .ok found ↔ found.index = index ∧ found.name = step.name ∧
      found.finding = finding ∧ finding.message = .ok found.message := by
  obtain ⟨i, name, f, message⟩ := found
  cases hmessage : finding.message with
  | error e => simp [issue, hmessage, Except.map]
  | ok said =>
      simp only [issue, hmessage, Except.map, Except.ok.injEq, Issue.mk.injEq]
      simp only [eq_comm]

theorem issue_fails_iff {index : Nat} {step : Step} {finding : Finding} :
    (∃ e, issue index step finding = .error e) ↔ ∃ e, finding.message = .error e :=
  exists_congr fun _ => map_eq_error_iff

/-- Of checks that come to their end, an issue is a finding of the step where it stands, in words. -/
theorem mem_issuesFrom_iff {count index : Nat} {pending : Bool} {steps : List Step}
    {found : List Issue} (h : issuesFrom count index pending steps = .ok found) {issue : Issue} :
    issue ∈ found ↔
      ∃ k step, steps[k]? = some step ∧ issue.index = index + k ∧ issue.name = step.name ∧
        issue.finding ∈ findings count ((steps.take k).foldl pendingAfter pending) step ∧
        issue.finding.message = .ok issue.message := by
  induction steps generalizing index pending found with
  | nil =>
      cases h
      simp
  | cons first rest ih =>
      obtain ⟨here, hhere, h⟩ := bind_eq_ok_iff.mp h
      obtain ⟨later, hlater, h⟩ := bind_eq_ok_iff.mp h
      cases h
      simp only [List.mem_append, ih hlater, mem_of_mapM_ok hhere, issue_eq_ok_iff]
      constructor
      · rintro (⟨_, member, hindex, hname, rfl, said⟩ | ⟨k, step, at_k, hindex, others⟩)
        · exact ⟨0, first, rfl, hindex, hname, member, said⟩
        · exact ⟨k + 1, step, at_k, by omega, others⟩
      · rintro ⟨k, step, at_k, hindex, hname, member, said⟩
        cases k with
        | zero =>
            obtain rfl : first = step := by simpa using at_k
            exact .inl ⟨issue.finding, member, hindex, hname, rfl, said⟩
        | succ k => exact .inr ⟨k, step, at_k, by omega, hname, member, said⟩

/-- The checks break off at the first finding that cannot be put into words. -/
theorem issuesFrom_fails_iff {count index : Nat} {pending : Bool} {steps : List Step} :
    (∃ e, issuesFrom count index pending steps = .error e) ↔
      ∃ k step, steps[k]? = some step ∧
        ∃ finding ∈ findings count ((steps.take k).foldl pendingAfter pending) step,
          ∃ e, finding.message = .error e := by
  induction steps generalizing index pending with
  | nil => exact ⟨nofun, by simp⟩
  | cons first rest ih =>
      have hhere : (∃ e, (findings count pending first).mapM (issue index first) = .error e) ↔ _ :=
        mapM_fails_iff
      simp only [issue_fails_iff] at hhere
      have hlater : (∃ e, issuesFrom count (index + 1) (pendingAfter pending first) rest =
          .error e) ↔ _ := ih
      rw [issuesFrom]
      constructor
      · rintro ⟨e, h⟩
        rcases cases_of_bind_error h with broken | ⟨here, -, h⟩
        · exact ⟨0, first, rfl, hhere.mp ⟨e, broken⟩⟩
        · rcases cases_of_bind_error h with broken | ⟨later, -, h⟩
          · obtain ⟨k, step, at_k, others⟩ := hlater.mp ⟨e, broken⟩
            exact ⟨k + 1, step, at_k, others⟩
          · cases h
      · rintro ⟨k, step, at_k, others⟩
        cases hfirst : (findings count pending first).mapM (issue index first) with
        | error e => exact ⟨e, rfl⟩
        | ok here =>
            cases k with
            | zero =>
                obtain rfl : first = step := by simpa using at_k
                obtain ⟨e, broken⟩ := hhere.mpr others
                cases hfirst.symm.trans broken
            | succ k =>
                obtain ⟨e, broken⟩ := hlater.mpr ⟨k, step, at_k, others⟩
                rw [broken]
                exact ⟨e, rfl⟩

theorem reports_iff {steps : List Step} {rule : String} {index : Nat} :
    Reports steps rule index ↔ Complete steps ∧ ∃ step, steps[index]? = some step ∧
      ∃ finding ∈ findings steps.length (pendingAt steps index) step, finding.rule = rule := by
  constructor
  · rintro ⟨found, complete, issue, member, rfl, hrule⟩
    obtain ⟨k, step, at_k, hindex, -, hfinding, -⟩ := (mem_issuesFrom_iff complete).mp member
    rw [Nat.zero_add] at hindex
    exact ⟨⟨found, complete⟩, step, hindex ▸ at_k, issue.finding, hindex ▸ hfinding, hrule⟩
  · rintro ⟨⟨found, complete⟩, step, here, finding, member, hrule⟩
    cases hmessage : finding.message with
    | error e =>
        obtain ⟨e, broken⟩ : ∃ e, issues steps = .error e :=
          issuesFrom_fails_iff.mpr ⟨index, step, here, finding, member, e, hmessage⟩
        cases complete.symm.trans broken
    | ok said =>
        refine ⟨found, complete, ⟨index, step.name, finding, said⟩, ?_, rfl, hrule⟩
        exact (mem_issuesFrom_iff complete).mpr
          ⟨index, step, here, (Nat.zero_add index).symm, rfl, member, hmessage⟩

/-- What each finding says about its step. -/
def Finding.Describes (count : Nat) (pending : Bool) (step : Step) : Finding → Prop
  | .invalidAction label => step.action = .invalid ∧ label = step.actionLabel
  | .invalidSelectorKind => usesElement step.action = true ∧ step.selectorKind = .unknown
  | .emptySelector action => usesElement step.action = true ∧ step.selectorKind ≠ .unknown ∧
      step.selectors = [] ∧ action = step.action
  | .invalidSlot slot =>
      step.marker = .finish ∧ step.measureSlot ∉ measureSlots ∧ slot = step.measureSlot
  | .sleepNotNumeric value => step.action = .sleep ∧
      isDigitText (Text.trim step.actionValue) = false ∧ value = step.actionValue
  | .openWithoutUrl => step.action = .openPage ∧ Text.isBlankText step.actionValue = true
  | .jumpOutOfRange target steps => step.action = .jump ∧
      ¬(0 ≤ step.jumpTarget ∧ step.jumpTarget < count) ∧ target = step.jumpTarget ∧ steps = count
  | .finishBeforeStart => step.marker = .finish ∧ pending = false

theorem checkSelector_eq_some_iff {step : Step} {finding : Finding} :
    checkSelector step = some finding ↔ usesElement step.action = true ∧
      (step.selectorKind = .unknown ∧ finding = .invalidSelectorKind ∨
        step.selectorKind ≠ .unknown ∧ step.selectors = [] ∧
          finding = .emptySelector step.action) := by
  rw [eq_comm]
  cases huses : usesElement step.action with
  | false => simp [checkSelector, huses]
  | true =>
      by_cases hkind : step.selectorKind = .unknown
      · simp [checkSelector, huses, hkind]
      · by_cases hselectors : step.selectors = [] <;>
          simp [checkSelector, huses, hkind, hselectors]

/-- A step has the findings that describe it, and no others. -/
theorem mem_findings_iff {count : Nat} {pending : Bool} {step : Step} {finding : Finding} :
    finding ∈ findings count pending step ↔ finding.Describes count pending step := by
  have hmember : finding ∈ findings count pending step ↔
      some finding = checkAction step ∨ checkSelector step = some finding ∨
      some finding = checkSlot step ∨ some finding = checkSleep step ∨
      some finding = checkUrl step ∨ some finding = checkJump count step ∨
      some finding = checkMarker pending step := by
    rw [eq_comm (b := some finding)]
    simp [findings]
  rw [hmember, checkSelector_eq_some_iff]
  cases finding <;>
    simp [checkAction, checkSlot, checkSleep, checkUrl, checkJump, checkMarker, Finding.Describes,
      and_assoc]

/-- The issue of a step names a number that has too many digits. -/
def PrintsLong (count : Nat) (step : Step) : Prop :=
  step.marker = .finish ∧ Text.isLongNumber step.measureSlot = true ∨
    step.action = .jump ∧ ¬(0 ≤ step.jumpTarget ∧ step.jumpTarget < count) ∧
      (Text.isLongNumber step.jumpTarget = true ∨ Text.isLongNumber ((count : Int) - 1) = true)

theorem not_isLongNumber_of_mem {slot : Int} (known : slot ∈ measureSlots) :
    Text.isLongNumber slot = false := by
  simp only [measureSlots, List.mem_cons, List.not_mem_nil, or_false] at known
  rcases known with rfl | rfl | rfl <;> decide +kernel

/-- The numbers that are written out in what is said of a finding. -/
def Finding.numbers : Finding → List Int
  | .invalidSlot slot => [slot]
  | .jumpOutOfRange target count => [target, (count : Int) - 1]
  | _ => []

/-- A finding cannot be put into words if and only if a number in it is too long. -/
theorem message_fails_iff {finding : Finding} :
    (∃ e, finding.message = .error e) ↔ ∃ n ∈ finding.numbers, Text.isLongNumber n = true := by
  have fails_iff (answer : Except Text.WriteError String) :
      (∃ e, answer = .error e) ↔ answer = .error .tooLong := by
    constructor
    · rintro ⟨⟨⟩, rfl⟩
      rfl
    · exact fun h => ⟨_, h⟩
  rw [fails_iff]
  cases finding with
  | invalidSlot slot =>
      cases hslot : Text.isLongNumber slot <;>
        simp [Finding.message, Finding.numbers, Text.writeInteger, hslot, bind, Except.bind, pure,
          Except.pure]
  | jumpOutOfRange target count =>
      cases htarget : Text.isLongNumber target <;>
        cases hcount : Text.isLongNumber ((count : Int) - 1) <;>
          simp [Finding.message, Finding.numbers, Text.writeInteger, htarget, hcount, bind,
            Except.bind, pure, Except.pure]
  | _ => simp [Finding.message, Finding.numbers]

/-- A step has a finding that cannot be put into words if and only if its issue names a number that is
too long, whatever the markers before it are. -/
theorem exists_fails_iff {count : Nat} {pending : Bool} {step : Step} :
    (∃ finding ∈ findings count pending step, ∃ e, finding.message = .error e) ↔
      PrintsLong count step := by
  simp only [mem_findings_iff, message_fails_iff]
  constructor
  · rintro ⟨finding, describes, n, member, long⟩
    cases finding with
    | invalidSlot slot =>
        obtain ⟨finish, -, rfl⟩ := describes
        obtain rfl := List.mem_singleton.mp member
        exact .inl ⟨finish, long⟩
    | jumpOutOfRange target steps =>
        obtain ⟨jumps, outside, rfl, rfl⟩ := describes
        simp only [Finding.numbers, List.mem_cons, List.not_mem_nil, or_false] at member
        rcases member with rfl | rfl
        · exact .inr ⟨jumps, outside, .inl long⟩
        · exact .inr ⟨jumps, outside, .inr long⟩
    | _ => cases member
  · rintro (⟨finish, long⟩ | ⟨jumps, outside, long | long⟩)
    · have foreign : step.measureSlot ∉ measureSlots := fun known =>
        Bool.false_ne_true ((not_isLongNumber_of_mem known).symm.trans long)
      exact ⟨.invalidSlot step.measureSlot, ⟨finish, foreign, rfl⟩, _, List.mem_cons_self, long⟩
    · exact ⟨.jumpOutOfRange step.jumpTarget count, ⟨jumps, outside, rfl, rfl⟩, _,
        List.mem_cons_self, long⟩
    · exact ⟨.jumpOutOfRange step.jumpTarget count, ⟨jumps, outside, rfl, rfl⟩, _,
        List.mem_cons_of_mem _ List.mem_cons_self, long⟩

/-- The checks come to their end if and only if no step has an issue that names a number too long. -/
theorem complete_iff {steps : List Step} :
    Complete steps ↔ ∀ step ∈ steps, ¬ PrintsLong steps.length step := by
  have hcomplete : Complete steps ↔ ¬ ∃ e, issues steps = .error e := by
    cases h : issues steps with
    | ok found => exact iff_of_true ⟨found, h⟩ nofun
    | error e =>
        refine iff_of_false ?_ (fun unbroken => unbroken ⟨e, rfl⟩)
        rintro ⟨found, complete⟩
        cases h.symm.trans complete
  rw [hcomplete, issues, issuesFrom_fails_iff]
  simp only [exists_fails_iff, not_exists, not_and]
  constructor
  · intro h step member
    obtain ⟨k, at_k⟩ := List.mem_iff_getElem?.mp member
    exact h k step at_k
  · exact fun h k step at_k => h step (List.mem_of_getElem? at_k)

section

variable {steps : List Step} {index : Nat} {step : Step}

theorem reports_iff_describes (here : steps[index]? = some step) {rule : String} :
    Reports steps rule index ↔ Complete steps ∧ ∃ finding : Finding,
      finding.rule = rule ∧ finding.Describes steps.length (pendingAt steps index) step := by
  simp only [reports_iff, here, Option.some.injEq, exists_eq_left', mem_findings_iff, and_comm]

/-- The issues at a step are those whose findings describe it. -/
theorem mem_issues_iff {found : List Issue} (complete : issues steps = .ok found)
    (here : steps[index]? = some step) {finding : Finding} {said : String} :
    ⟨index, step.name, finding, said⟩ ∈ found ↔
      finding.Describes steps.length (pendingAt steps index) step ∧ finding.message = .ok said := by
  rw [mem_issuesFrom_iff complete, ← mem_findings_iff]
  constructor
  · rintro ⟨k, other, at_k, hindex, -, member, said⟩
    obtain rfl : index = k := hindex.trans (Nat.zero_add k)
    obtain rfl : step = other := Option.some.inj (here.symm.trans at_k)
    exact ⟨member, said⟩
  · rintro ⟨member, said⟩
    exact ⟨index, step, here, (Nat.zero_add index).symm, rfl, member, said⟩

theorem reports_invalidAction_iff (here : steps[index]? = some step) :
    Reports steps "invalid-action" index ↔ Complete steps ∧ step.action = .invalid := by
  rw [reports_iff_describes here]
  refine and_congr_right fun _ => ⟨?_, ?_⟩
  · rintro ⟨finding, hrule, describes⟩
    cases finding <;> simp [Finding.rule] at hrule
    exact describes.1
  · intro invalid
    exact ⟨.invalidAction step.actionLabel, rfl, invalid, rfl⟩

theorem reports_invalidSelectorKind_iff (here : steps[index]? = some step) :
    Reports steps "invalid-selector-type" index ↔
      Complete steps ∧ usesElement step.action = true ∧ step.selectorKind = .unknown := by
  rw [reports_iff_describes here]
  refine and_congr_right fun _ => ⟨?_, ?_⟩
  · rintro ⟨finding, hrule, describes⟩
    cases finding <;> simp [Finding.rule] at hrule
    exact describes
  · intro unknown
    exact ⟨.invalidSelectorKind, rfl, unknown⟩

theorem reports_invalidSlot_iff (here : steps[index]? = some step) :
    Reports steps "invalid-measure" index ↔
      Complete steps ∧ step.marker = .finish ∧ step.measureSlot ∉ measureSlots := by
  rw [reports_iff_describes here]
  refine and_congr_right fun _ => ⟨?_, ?_⟩
  · rintro ⟨finding, hrule, describes⟩
    cases finding <;> simp [Finding.rule] at hrule
    exact ⟨describes.1, describes.2.1⟩
  · rintro ⟨finish, foreign⟩
    exact ⟨.invalidSlot step.measureSlot, rfl, finish, foreign, rfl⟩

theorem reports_sleepNotNumeric_iff (here : steps[index]? = some step) :
    Reports steps "sleep-not-numeric" index ↔
      Complete steps ∧ step.action = .sleep ∧
        isDigitText (Text.trim step.actionValue) = false := by
  rw [reports_iff_describes here]
  refine and_congr_right fun _ => ⟨?_, ?_⟩
  · rintro ⟨finding, hrule, describes⟩
    cases finding <;> simp [Finding.rule] at hrule
    exact ⟨describes.1, describes.2.1⟩
  · rintro ⟨sleeps, other⟩
    exact ⟨.sleepNotNumeric step.actionValue, rfl, sleeps, other, rfl⟩

theorem reports_finishBeforeStart_iff (here : steps[index]? = some step) :
    Reports steps "end-before-start" index ↔
      Complete steps ∧ step.marker = .finish ∧ pendingAt steps index = false := by
  rw [reports_iff_describes here]
  refine and_congr_right fun _ => ⟨?_, ?_⟩
  · rintro ⟨finding, hrule, describes⟩
    cases finding <;> simp [Finding.rule] at hrule
    exact describes
  · intro early
    exact ⟨.finishBeforeStart, rfl, early⟩

/-- Whether a start marker is pending after a step depends on the step and on the steps before it. -/
theorem pendingAt_succ (here : steps[index]? = some step) :
    pendingAt steps (index + 1) = pendingAfter (pendingAt steps index) step := by
  rw [pendingAt, List.take_add_one, here, Option.toList_some, List.foldl_append]
  rfl

end

end BrowserSteps.Lint
