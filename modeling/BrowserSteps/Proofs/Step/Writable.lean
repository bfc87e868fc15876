import BrowserSteps.Proofs.Json.Within
import BrowserSteps.Step.Document

/-!
Numbers of steps that are read from documents. Wherever a field takes a whole number from (a number, a
truth value, a binary64 number without a fraction, a text), it is within the digit limit, so that it
can be written again.
-/

namespace BrowserSteps

namespace Field

/-- Numbers of 64 bits are far within the limit. -/
theorem small_of_natAbs_le {n : Int} (h : n.natAbs ≤ 2 ^ 63) : Json.Small (.int n) := by
  have hpower : 2 ^ 63 < 10 ^ 20 := by decide
  have hlimit : 10 ^ 20 ≤ 10 ^ Text.digitLimit := Nat.pow_le_pow_right (by decide) (by decide)
  exact Nat.lt_of_le_of_lt h (Nat.lt_of_lt_of_le hpower hlimit)

theorem small_integerOfFloat {x : Float} {n : Int} (h : integerOfFloat x = .ok n) :
    Json.Small (.int n) := by
  unfold integerOfFloat at h
  split at h
  · split at h
    · split at h
      next bounds =>
        cases h
        have hpower : Int.pow 2 63 = 2 ^ 63 := rfl
        rw [hpower] at bounds
        exact small_of_natAbs_le (by omega)
      next => cases h
    · cases h
  · cases h

theorem plainDigits?_bounds {s : List Char} {digits : List Nat} (h : plainDigits? s = some digits) :
    digits.length ≤ s.length ∧ ∀ d ∈ digits, d < 10 := by
  have hcons {c : Char} (digit : c.isDigit = true) {rest : List Nat} {tail : List Char}
      (hrest : rest.length ≤ tail.length ∧ ∀ d ∈ rest, d < 10) :
      ((c.toNat - '0'.toNat) :: rest).length ≤ tail.length + 1 ∧
        ∀ d ∈ (c.toNat - '0'.toNat) :: rest, d < 10 :=
    ⟨Nat.succ_le_succ hrest.1,
      List.forall_mem_cons.mpr ⟨Text.value_lt_ten_of_isDigit digit, hrest.2⟩⟩
  fun_induction plainDigits? s generalizing digits
  case case1 => cases h
  case case2 c digit =>
    cases h
    exact hcons digit ⟨Nat.le_refl 0, List.forall_mem_nil _⟩
  case case4 c rest digit ih =>
    obtain ⟨run, hrun, rfl⟩ := Option.map_eq_some_iff.mp h
    obtain ⟨hlength, hten⟩ := hcons digit (ih hrun)
    exact ⟨Nat.le_succ_of_le hlength, hten⟩
  case case6 c rest _ _ digit ih =>
    obtain ⟨run, hrun, rfl⟩ := Option.map_eq_some_iff.mp h
    exact hcons digit (ih hrun)
  all_goals cases h

theorem length_trimBy_le (p : Char → Bool) (s : List Char) :
    (Text.trimBy p s).length ≤ s.length := by
  have houter := (List.dropWhile_suffix p (l := (s.dropWhile p).reverse)).length_le
  have hinner := (List.dropWhile_suffix p (l := s)).length_le
  simp only [Text.trimBy, List.length_reverse] at houter ⊢
  omega

theorem length_splitSign_le (s : List Char) : (Text.splitSign s).2.length ≤ s.length := by
  unfold Text.splitSign
  split <;> simp

theorem length_dropZeroFraction_le (s : List Char) : (dropZeroFraction s).length ≤ s.length := by
  simp only [dropZeroFraction]
  split
  · exact (List.takeWhile_prefix _).length_le
  · exact Nat.le_refl _

theorem small_integerOfText {s : String} {n : Int} (h : integerOfText s = .ok n) :
    Json.Small (.int n) := by
  unfold integerOfText at h
  split at h
  · cases h
  next short =>
    simp only at h
    split at h
    next digits hdigits =>
      cases h
      obtain ⟨hlength, hten⟩ := plainDigits?_bounds hdigits
      have hfraction :=
        length_dropZeroFraction_le (Text.splitSign (Text.trimBy Text.isWhite s.toList)).2
      have hsign := length_splitSign_le (Text.trimBy Text.isWhite s.toList)
      have htrim := length_trimBy_le Text.isWhite s.toList
      have hle : 10 ^ digits.length ≤ 10 ^ Text.digitLimit :=
        Nat.pow_le_pow_right (by decide) (by omega)
      exact Json.small_signed (Nat.lt_of_lt_of_le (Text.ofDigits_lt hten) hle) _
    next => cases h

/-- A number that is read from a value within the digit limit is within it. -/
theorem small_integer {value : Json} {n : Int} (small : value.Small)
    (h : integer value = .ok n) : Json.Small (.int n) := by
  unfold integer at h
  split at h
  · cases h
    exact small
  next b =>
    cases h
    exact small_of_natAbs_le (by cases b <;> decide)
  · exact small_integerOfFloat h
  · exact small_integerOfText h
  · cases h
  · cases h

end Field

/-- A property of what is read, if anything is. -/
def Reading.Yields {α : Type} (p : α → Prop) (r : Reading α) : Prop := ∀ x, r = .ok x → p x

theorem Reading.Yields.ap {α β : Type} {p : β → Prop} {q : α → Prop} {f : Reading (α → β)}
    {x : Reading α} (hf : Yields (fun g => ∀ a, q a → p (g a)) f) (hx : Yields q x) :
    Yields p (ap f x) := by
  intro b h
  cases f <;> cases x <;> cases h
  exact hf _ rfl _ (hx _ rfl)

namespace Step

/-- The numbers of a step are within the digit limit. -/
structure Writable (step : Step) : Prop where
  measureSlot : Json.Small (.int step.measureSlot)
  timeoutSeconds : Json.Small (.int step.timeoutSeconds)
  jumpTarget : Json.Small (.int step.jumpTarget)

/-- Such a step has no number with too many digits to be written. -/
theorem writable_iff {step : Step} : step.Writable ↔ step.hasLongNumber = false := by
  have hsmall (n : Int) : Json.Small (.int n) ↔ Text.isLongNumber n = false := by
    rw [Json.Small, Text.isLongNumber, decide_eq_false_iff_not, Nat.not_le, Nat.pow_eq]
  simp only [hasLongNumber, List.any_cons, List.any_nil, Bool.or_eq_false_iff, ← hsmall, and_true]
  exact ⟨fun h => ⟨h.measureSlot, h.timeoutSeconds, h.jumpTarget⟩,
    fun ⟨slot, seconds, target⟩ => ⟨slot, seconds, target⟩⟩

/-- What is read of a field is its default or comes from a value among the members. -/
theorem mem_of_readField {α : Type} {members : List (String × Json)} {names : List String}
    {default x : α} {convert : Json → Except Field.Fault α}
    (h : readField members names default convert = .ok x) :
    x = default ∨ ∃ member ∈ members, convert member.2 = .ok x := by
  simp only [readField] at h
  split at h
  · exact .inl (Except.ok.inj h).symm
  next key value found =>
    right
    obtain ⟨name, -, hname⟩ := List.exists_of_findSome?_eq_some found
    obtain ⟨_, hget, heq⟩ := Option.map_eq_some_iff.mp hname
    cases heq
    obtain ⟨before, after, rfl, -⟩ := List.lookup_eq_some_iff.mp hget
    refine ⟨(key, value), by simp, ?_⟩
    split at h
    next hconvert =>
      cases h
      exact hconvert
    next => cases h

theorem small_readField {members : List (String × Json)} {names : List String} {default n : Int}
    (small : Json.AllMembers Json.Small members) (hdefault : Json.Small (.int default))
    (h : readField members names default Field.integer = .ok n) : Json.Small (.int n) := by
  rcases mem_of_readField h with rfl | ⟨member, among, hinteger⟩
  · exact hdefault
  · exact Field.small_integer (Json.allMembers_iff.mp small member among).self hinteger

/-- At most a string is kept beside the members. -/
theorem keepRawAction_eq (members : List (String × Json)) :
    keepRawAction members = members ∨
      ∃ raw : Json, raw.All Json.Small ∧
        keepRawAction members = Keyed.put "rawAction" raw members := by
  unfold keepRawAction
  split
  next raw _ =>
    rcases ite_eq_or_eq (Action.resolve raw = .invalid) (Keyed.put "rawAction" (.str raw) members)
      members with kept | same
    · exact .inr ⟨.str raw, trivial, kept⟩
    · exact .inl same
  next raw _ => exact .inr ⟨.unpaired raw, trivial, rfl⟩
  next => exact .inl rfl

theorem allMembers_keepRawAction {members : List (String × Json)}
    (small : Json.AllMembers Json.Small members) :
    Json.AllMembers Json.Small (keepRawAction members) := by
  rcases keepRawAction_eq members with same | ⟨raw, hraw, kept⟩
  · rwa [same]
  · rw [kept]
    exact Json.allMembers_put hraw small

theorem writable_of_ofJson {value : Json} {step : Step} (small : value.All Json.Small)
    (h : ofJson value = .ok step) : step.Writable := by
  cases value with
  | obj members =>
      have hsmall := allMembers_keepRawAction small.2
      have hany {α : Type} (r : Reading α) : Reading.Yields (fun _ => True) r := fun _ _ => trivial
      have hinteger (names : List String) {default : Int} (hdefault : Json.Small (.int default)) :
          Reading.Yields (fun n => Json.Small (.int n))
            (readField (keepRawAction members) names default Field.integer) :=
        fun _ => small_readField hsmall hdefault
      have hyields : Reading.Yields Writable (ofMembers members) := by
        refine .ap (.ap (.ap (.ap (.ap (.ap (.ap (.ap (.ap (.ap (.ap (.ap ?_ (hany _)) (hany _))
          (hany _)) (hany _)) (hany _)) (hany _)) (hinteger _ ?_)) (hany _)) (hinteger _ ?_))
          (hany _)) (hinteger _ ?_)) (hany _)
        · rintro _ made
          cases made
          intro _ _ _ _ _ _ _ _ _ _ _ _ slot hslot _ _ seconds hseconds _ _ target htarget _ _
          exact ⟨hslot, hseconds, htarget⟩
        · exact Field.small_of_natAbs_le (by decide)
        · exact Field.small_of_natAbs_le (by decide)
        · exact Field.small_of_natAbs_le (by decide)
      exact hyields step h
  | _ => cases h

theorem writable_of_listOfItems? {items : List Json} {steps : List Step}
    (small : Json.AllItems Json.Small items) (h : listOfItems? items = some steps) :
    ∀ step ∈ steps, step.Writable := by
  induction items generalizing steps with
  | nil =>
      cases h
      exact List.forall_mem_nil _
  | cons item rest ih =>
      unfold listOfItems? at h
      split at h
      next step hitem =>
        obtain ⟨others, hrest, rfl⟩ := Option.map_eq_some_iff.mp h
        exact List.forall_mem_cons.mpr ⟨writable_of_ofJson small.1 hitem, ih small.2 hrest⟩
      next => cases h

theorem writable_of_listOfJson {value : Json} (small : value.All Json.Small) :
    ∀ step ∈ listOfJson value, step.Writable := by
  unfold listOfJson
  split
  next items =>
    cases hitems : listOfItems? items with
    | none => exact List.forall_mem_nil _
    | some steps => exact writable_of_listOfItems? small.2 hitems
  next => exact List.forall_mem_nil _

/-- Steps that are read from a document can be written. -/
theorem writable_of_parse {text : String} {steps : List Step} (h : parse text = .ok steps) :
    ∀ step ∈ steps, step.Writable := by
  unfold parse at h
  split at h
  · cases h
    exact List.forall_mem_nil _
  · split at h
    next value hread =>
      cases h
      exact writable_of_listOfJson (Json.all_read hread)
    next =>
      cases h
      exact List.forall_mem_nil _
    next => cases h

end Step

end BrowserSteps
