import BrowserSteps.Calendar
import Mathlib.Data.List.Basic

/-!
The texts of days and times of day. A number is padded with zeros, so it can be read off its digits; and
the text of a time of day without separators says which second of the day it is, and nothing else.
-/

namespace BrowserSteps

theorem Text.bounds_of_isDigit {c : Char} (digit : c.isDigit = true) :
    0x30 ≤ c.toNat ∧ c.toNat ≤ 0x39 := by
  simpa [Char.isDigit, UInt32.le_iff_toNat_le] using digit

namespace DateTime

theorem isDigit_of_mem_padded {width n : Nat} : ∀ c ∈ (padded width n).toList, c.isDigit = true := by
  intro c member
  rw [padded, String.toList_append, String.toList_ofList, List.mem_append] at member
  rcases member with zero | digit
  · rw [List.eq_of_mem_replicate zero]
    rfl
  · rw [Nat.toString_eq_repr, Nat.repr_eq_ofList_toDigits, String.toList_ofList] at digit
    exact Nat.isDigit_of_mem_toDigits (by decide) (by decide) digit

/-- Two digits are enough for the parts of a time of day. -/
theorem length_padded_two {n : Nat} (short : n < 100) : (padded 2 n).toList.length = 2 := by
  have hdigits : (Nat.toDigits 10 n).length ≤ 2 :=
    (Nat.length_toDigits_le_iff (by decide) (by decide)).mpr short
  simp only [padded, Nat.toString_eq_repr, Nat.repr_eq_ofList_toDigits, String.toList_append,
    String.toList_ofList, String.length_ofList, List.length_append, List.length_replicate]
  omega

/-- The zeros in front do not count. -/
theorem ofDigitChars_padded (width n : Nat) : Nat.ofDigitChars 10 (padded width n).toList 0 = n := by
  have hzeros (k : Nat) : Nat.ofDigitChars 10 (List.replicate k '0') 0 = 0 := by
    induction k with
    | zero => rfl
    | succ k ih => rwa [List.replicate_succ, Nat.ofDigitChars_cons]
  rw [padded, String.toList_append, String.toList_ofList, Nat.ofDigitChars_append, hzeros,
    Nat.toString_eq_repr, Nat.repr_eq_ofList_toDigits, String.toList_ofList,
    Nat.ofDigitChars_ten_toDigits]

theorem padded_injective {width m n : Nat} (h : padded width m = padded width n) : m = n := by
  rw [← ofDigitChars_padded width m, h, ofDigitChars_padded]

/-- The second of the day that a point in time lies in. -/
def secondOfDay (t : DateTime) : Nat := (t.micros.fmod microsPerDay).toNat / 1000000

theorem secondOfDay_lt (t : DateTime) : t.secondOfDay < 86400 := by
  have hrest := Int.fmod_lt_of_pos t.micros (b := microsPerDay) (by decide)
  simp only [secondOfDay, microsPerDay] at hrest ⊢
  omega

section

variable {t u : DateTime}

theorem toList_clockText : (t.clockText "").toList =
    (padded 2 (t.secondOfDay / 3600)).toList ++ ((padded 2 (t.secondOfDay / 60 % 60)).toList ++
      (padded 2 (t.secondOfDay % 60)).toList) := by
  simp [clockText, timeOfDay, secondOfDay]

theorem length_clockText : (t.clockText "").toList.length = 6 := by
  have hsecond := t.secondOfDay_lt
  rw [toList_clockText, List.length_append, List.length_append]
  rw [length_padded_two (by omega), length_padded_two (by omega), length_padded_two (by omega)]

/-- The text of a time of day without separators says which second it is. -/
theorem clockText_eq_iff : t.clockText "" = u.clockText "" ↔ t.secondOfDay = u.secondOfDay := by
  constructor
  · intro h
    have ht := t.secondOfDay_lt
    have hu := u.secondOfDay_lt
    have htexts := congrArg String.toList h
    rw [toList_clockText, toList_clockText] at htexts
    have same {m n : Nat} (hm : m < 100) (hn : n < 100) :
        (padded 2 m).toList.length = (padded 2 n).toList.length :=
      (length_padded_two hm).trans (length_padded_two hn).symm
    obtain ⟨hhour, hrest⟩ := List.append_inj htexts (same (by omega) (by omega))
    obtain ⟨hminute, hsecond⟩ := List.append_inj hrest (same (by omega) (by omega))
    have sameHour := padded_injective (String.toList_injective hhour)
    have sameMinute := padded_injective (String.toList_injective hminute)
    have sameSecond := padded_injective (String.toList_injective hsecond)
    omega
  · intro h
    apply String.toList_injective
    rw [toList_clockText, toList_clockText, h]

theorem isDigit_of_mem_clockText : ∀ c ∈ (t.clockText "").toList, c.isDigit = true := by
  intro c member
  rw [toList_clockText, List.mem_append, List.mem_append] at member
  rcases member with hour | minute | second
  · exact isDigit_of_mem_padded c hour
  · exact isDigit_of_mem_padded c minute
  · exact isDigit_of_mem_padded c second

end

end DateTime

end BrowserSteps
