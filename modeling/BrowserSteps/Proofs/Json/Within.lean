import BrowserSteps.Json.Reader
import BrowserSteps.Proofs.Except
import Mathlib.Data.Nat.Digits.Lemmas

/-!
Whole numbers that are read are within the digit limit, wherever they stand in a value. So is every
number that a text writes with no more digits than that.
-/

namespace BrowserSteps

/-- A number with some digits is below the power of ten with as many. -/
theorem Text.ofDigits_lt {digits : List Nat} (h : ∀ d ∈ digits, d < 10) :
    ofDigits digits < 10 ^ digits.length := by
  have hdigits : ofDigits digits = Nat.ofDigits 10 digits.reverse := by
    rw [Nat.ofDigits_eq_foldr, List.foldr_reverse, ofDigits]
    simp only [Nat.cast_id, Nat.add_comm]
  rw [hdigits, ← List.length_reverse]
  exact Nat.ofDigits_lt_base_pow_length (by decide) fun d member => h d (List.mem_reverse.mp member)

theorem Text.value_lt_ten_of_isDigit {c : Char} (h : c.isDigit = true) :
    c.toNat - '0'.toNat < 10 := by
  simp only [Char.isDigit, Bool.and_eq_true, decide_eq_true_eq] at h
  have hle : c.toNat ≤ '9'.toNat := h.2
  exact Nat.lt_of_le_of_lt (Nat.sub_le_sub_right hle _) (by decide)

namespace Json

mutual

/-- A value and all the values in it have a property. -/
def All (p : Json → Prop) : Json → Prop
  | .arr items => p (.arr items) ∧ AllItems p items
  | .obj members => p (.obj members) ∧ AllMembers p members
  | atom => p atom

def AllItems (p : Json → Prop) : List Json → Prop
  | [] => True
  | item :: rest => All p item ∧ AllItems p rest

def AllMembers (p : Json → Prop) : List (String × Json) → Prop
  | [] => True
  | (_, value) :: rest => All p value ∧ AllMembers p rest

end

theorem allItems_iff {p : Json → Prop} {items : List Json} :
    AllItems p items ↔ ∀ item ∈ items, All p item := by
  induction items with
  | nil => simp [AllItems]
  | cons item rest ih => simp [AllItems, ih]

theorem allMembers_iff {p : Json → Prop} {members : List (String × Json)} :
    AllMembers p members ↔ ∀ member ∈ members, All p member.2 := by
  induction members with
  | nil => simp [AllMembers]
  | cons member rest ih => simp [AllMembers, ih]

theorem All.self {p : Json → Prop} {value : Json} (h : All p value) : p value := by
  cases value with
  | arr | obj => exact h.1
  | _ => exact h

/-- Induction on the parts of a value that all have a property. -/
theorem All.induction {p motive : Json → Prop}
    (atom : ∀ value, (∀ items, value ≠ .arr items) → (∀ members, value ≠ .obj members) → p value →
      motive value)
    (arr : ∀ items, p (.arr items) → (∀ item ∈ items, motive item) → motive (.arr items))
    (obj : ∀ members, p (.obj members) → (∀ member ∈ members, motive member.2) →
      motive (.obj members)) :
    ∀ value : Json, value.All p → motive value
  | .arr items, h => arr items h.1 fun item member =>
      have := List.sizeOf_lt_of_mem member
      All.induction atom arr obj item (allItems_iff.mp h.2 item member)
  | .obj members, h => obj members h.1 fun pair member =>
      have := List.sizeOf_lt_of_mem member
      All.induction atom arr obj pair.2 (allMembers_iff.mp h.2 pair member)
  | .null, h | .bool _, h | .int _, h | .float _, h | .str _, h | .unpaired _, h =>
      atom _ nofun nofun h
termination_by value => sizeOf value
decreasing_by
  · simp only [Json.arr.sizeOf_spec]
    omega
  · have hpair : sizeOf pair = 1 + sizeOf pair.1 + sizeOf pair.2 := by
      cases pair
      rfl
    simp only [Json.obj.sizeOf_spec]
    omega

/-- What is no whole number beyond the digit limit. -/
def Small : Json → Prop
  | .int n => n.natAbs < 10 ^ Text.digitLimit
  | _ => True

/-- ASCII digits write a number below the power of ten with as many digits. -/
theorem digitsValue_lt {digits : List Char} (h : ∀ c ∈ digits, c.isDigit = true) :
    digitsValue digits < 10 ^ digits.length := by
  have hten : ∀ d ∈ digits.map fun c => c.toNat - '0'.toNat, d < 10 := by
    intro d member
    obtain ⟨c, hc, rfl⟩ := List.mem_map.mp member
    exact Text.value_lt_ten_of_isDigit (h c hc)
  have hlt := Text.ofDigits_lt hten
  rwa [List.length_map] at hlt

theorem isDigit_of_mem_splitWhole (s : List Char) : ∀ c ∈ (splitWhole s).1, c.isDigit = true := by
  unfold splitWhole
  split
  · simp
  · exact List.all_eq_true.mp List.all_takeWhile

theorem small_int {n : Int} : Small (.int n) ↔ n.natAbs < 10 ^ Text.digitLimit := Iff.rfl

theorem small_signed {n : Nat} (h : n < 10 ^ Text.digitLimit) (negative : Bool) :
    Small (.int (if negative then -n else n)) := by
  cases negative with
  | false => exact h
  | true => rwa [if_pos rfl, small_int, Int.natAbs_neg, Int.natAbs_natCast]

theorem all_readNumber {negative : Bool} {s rest : List Char} {value : Json}
    (h : readNumber negative s = .ok (value, rest)) : value.All Small := by
  have hdigits := digitsValue_lt (isDigit_of_mem_splitWhole s)
  simp only [readNumber] at h
  generalize (splitWhole s).1 = whole at h hdigits
  split at h
  · cases h
  · split at h
    · split at h
      · cases h
      next long =>
        cases h
        have hle := Nat.pow_le_pow_right (show 0 < 10 by decide) (Nat.not_lt.mp long)
        exact small_signed (Nat.lt_of_lt_of_le hdigits hle) negative
    · cases h
      trivial

theorem all_readAtom {s rest : List Char} {value : Json} (h : readAtom s = .ok (value, rest)) :
    value.All Small := by
  unfold readAtom at h
  split at h <;> first | exact all_readNumber h | (cases h; trivial)

theorem allMembers_put {p : Json → Prop} {key : String} {value : Json}
    {members : List (String × Json)} (hvalue : value.All p) (h : AllMembers p members) :
    AllMembers p (Keyed.put key value members) := by
  induction members with
  | nil => exact ⟨hvalue, trivial⟩
  | cons member rest ih =>
      unfold Keyed.put
      split
      · exact ⟨hvalue, h.2⟩
      · exact ⟨h.1, ih h.2⟩

theorem allMembers_ofPairs {p : Json → Prop} {pairs : List (String × Json)}
    (h : AllMembers p pairs) : AllMembers p (Keyed.ofPairs pairs) := by
  refine List.foldlRecOn pairs _ (motive := AllMembers p) trivial fun all hall pair member => ?_
  exact allMembers_put (allMembers_iff.mp h pair member) hall

theorem all_ofPieces (pieces : List Piece) : (ofPieces pieces).All Small := by
  unfold ofPieces
  split <;> trivial

theorem allMembers_member {p : Json → Prop} {value : Json} (h : value.All p) (key : List Piece) :
    AllMembers p (member key value) := by
  unfold member
  cases text? key with
  | none => trivial
  | some s => exact ⟨h, trivial⟩

theorem allMembers_append {p : Json → Prop} {members others : List (String × Json)}
    (h : AllMembers p members) (hothers : AllMembers p others) :
    AllMembers p (members ++ others) := by
  rw [allMembers_iff] at *
  exact List.forall_mem_append.mpr ⟨h, hothers⟩

/-- Whatever is read, the whole numbers in it are within the digit limit. -/
theorem all_readers (bound : Nat) :
    (∀ s value rest, readValue bound s = .ok (value, rest) → value.All Small) ∧
    (∀ s items rest, readItems bound s = .ok (items, rest) → AllItems Small items) ∧
    ∀ s members rest, readMembers bound s = .ok (members, rest) → AllMembers Small members := by
  induction bound with
  | zero => exact ⟨nofun, nofun, nofun⟩
  | succ bound ih =>
      obtain ⟨hvalue, hitems, hmembers⟩ := ih
      refine ⟨?_, ?_, ?_⟩
      · intro s value rest h
        unfold readValue at h
        split at h
        · obtain ⟨_, -, heq⟩ := exists_of_map_ok h
          cases heq
          exact all_ofPieces _
        · split at h
          · cases h
            exact ⟨trivial, trivial⟩
          · obtain ⟨⟨items, after⟩, hread, heq⟩ := exists_of_map_ok h
            cases heq
            exact ⟨trivial, hitems _ _ _ hread⟩
        · split at h
          · cases h
            exact ⟨trivial, trivial⟩
          · obtain ⟨⟨pairs, after⟩, hread, heq⟩ := exists_of_map_ok h
            cases heq
            exact ⟨trivial, allMembers_ofPairs (hmembers _ _ _ hread)⟩
        · exact all_readAtom h
      · intro s items rest h
        obtain ⟨⟨item, after⟩, hitem, h⟩ := bind_eq_ok_iff.mp h
        simp only at h
        split at h
        · cases h
          exact ⟨hvalue _ _ _ hitem, trivial⟩
        · obtain ⟨⟨others, last⟩, hothers, h⟩ := bind_eq_ok_iff.mp h
          cases h
          exact ⟨hvalue _ _ _ hitem, hitems _ _ _ hothers⟩
        · cases h
      · intro s members rest h
        unfold readMembers at h
        split at h
        · obtain ⟨⟨key, after⟩, -, h⟩ := bind_eq_ok_iff.mp h
          simp only at h
          split at h
          · obtain ⟨⟨value, after⟩, hread, h⟩ := bind_eq_ok_iff.mp h
            simp only at h
            split at h
            · cases h
              exact allMembers_member (hvalue _ _ _ hread) key
            · obtain ⟨⟨others, last⟩, hothers, h⟩ := bind_eq_ok_iff.mp h
              cases h
              exact allMembers_append (allMembers_member (hvalue _ _ _ hread) key)
                (hmembers _ _ _ hothers)
            · cases h
          · cases h
        · cases h

theorem all_read {text : String} {value : Json} (h : read text = .ok value) : value.All Small := by
  obtain ⟨⟨found, rest⟩, hread, h⟩ := bind_eq_ok_iff.mp h
  simp only at h
  split at h
  · cases h
    exact (all_readers _).1 _ _ _ hread
  · cases h

end Json

end BrowserSteps
