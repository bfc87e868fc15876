import Mathlib

/-!
Rounding to binary64. A number that is too long for a mantissa is shifted to the right, and two bits
keep of what falls off on which side of the middle it was. What is left is rounded to the nearest
mantissa of 53 digits, and of two equally near ones to the even one; only if that overflows the
exponent grows.
-/

namespace BrowserSteps

namespace Binary64

open Float.Model Float.Model.UnpackedFloat

/-- A mantissa with its two bits stands for a quotient: the bits tell on which side of the middle to
the next mantissa the quotient lies. -/
def Stands (em : ExtendedMantissa) (m d : Nat) : Prop :=
  let low := 2 * em.mantissa * d
  match em.roundBit, em.stickyBit with
  | false, false => 2 * m = low
  | false, true => low < 2 * m ∧ 2 * m < low + d
  | true, false => 2 * m = low + d
  | true, true => low + d < 2 * m ∧ 2 * m < low + d + d

theorem stands_exact (m : Nat) : Stands (.ofMantissaAndAccuracy m .exact) m 1 := by
  simp [Stands, ExtendedMantissa.ofMantissaAndAccuracy]

theorem stands_quotient (m : Nat) {d : Nat} (positive : 0 < d) :
    Stands (.ofMantissaAndAccuracy (m / d) (accuracyOfFraction (m % d) d)) m d := by
  have hparts : 2 * m = 2 * (m / d) * d + 2 * (m % d) := by
    rw [Nat.mul_assoc, ← Nat.mul_add, Nat.mul_comm (m / d), Nat.div_add_mod]
  have hless := Nat.mod_lt m positive
  unfold accuracyOfFraction
  split
  next exact =>
    simp only [Stands, ExtendedMantissa.ofMantissaAndAccuracy]
    omega
  next rest =>
    cases hside : compare (2 * (m % d)) d <;>
      simp only [compare_lt_iff_lt, compare_eq_iff_eq, compare_gt_iff_gt] at hside <;>
      simp only [Stands, ExtendedMantissa.ofMantissaAndAccuracy] <;> omega

variable {em : ExtendedMantissa} {m d : Nat}

theorem Stands.le (h : Stands em m d) : em.mantissa * d ≤ m := by
  obtain ⟨mantissa, round, sticky⟩ := em
  cases round <;> cases sticky <;> simp only [Stands, Nat.mul_assoc] at h ⊢ <;> omega

theorem Stands.lt (h : Stands em m d) (positive : 0 < d) : m < (em.mantissa + 1) * d := by
  obtain ⟨mantissa, round, sticky⟩ := em
  cases round <;> cases sticky <;>
    simp only [Stands, Nat.mul_assoc, Nat.add_mul, Nat.one_mul] at h ⊢ <;> omega

theorem Stands.shiftRightOne (h : Stands em m d) (positive : 0 < d) :
    Stands em.shiftRightOne m (d * 2) := by
  obtain ⟨mantissa, round, sticky⟩ := em
  obtain ⟨half, bit, rfl⟩ : ∃ half, ∃ bit : Bool, mantissa = 2 * half + bit.toNat :=
    ⟨mantissa / 2, mantissa % 2 == 1, by
      rcases Nat.mod_two_eq_zero_or_one mantissa with bit | bit <;> simp [bit]; all_goals omega⟩
  have hshift : ExtendedMantissa.shiftRightOne ⟨2 * half + bit.toNat, round, sticky⟩ =
      ⟨half, bit, round || sticky⟩ := by
    have hbit : ((2 * half + bit.toNat) % 2 != 0) = bit := by cases bit <;> simp
    have hhalf : (2 * half + bit.toNat) / 2 = half := by
      have hless := bit.toNat_le
      omega
    rw [ExtendedMantissa.shiftRightOne, hhalf, hbit]
  have hlow : 2 * half * (d * 2) = 2 * (2 * half) * d := by ring
  have hodd : 2 * (2 * half + 1) * d = 2 * (2 * half) * d + d + d := by ring
  rw [hshift]
  cases bit <;> cases round <;> cases sticky <;>
    simp only [Stands, Bool.or_true, Bool.or_false, Bool.toNat_true, Bool.toNat_false, Nat.add_zero,
      hlow, hodd] at h ⊢ <;> omega

theorem Stands.shiftRight (h : Stands em m d) (positive : 0 < d) (k : Nat) :
    Stands (em >>> k) m (d * 2 ^ k) := by
  induction k with
  | zero => exact (Nat.mul_one d).symm ▸ h
  | succ k ih =>
      rw [Nat.pow_succ, ← Nat.mul_assoc]
      exact ih.shiftRightOne (Nat.mul_pos positive (Nat.two_pow_pos k))

/-- The number nearest to a quotient; if two are equally near, the even one. -/
structure Nearest (m d nearest : Nat) : Prop where
  above : 2 * nearest * d ≤ 2 * m + d
  below : 2 * m ≤ 2 * nearest * d + d
  even : 2 * m = 2 * nearest * d + d → nearest % 2 = 0

theorem Stands.nearest (h : Stands em m d) (positive : 0 < d) : Nearest m d em.roundedMantissa := by
  obtain ⟨mantissa, round, sticky⟩ := em
  have hnext : 2 * (mantissa + 1) * d = 2 * mantissa * d + d + d := by ring
  cases round <;> cases sticky <;>
    simp only [Stands, ExtendedMantissa.roundedMantissa, ExtendedMantissa.accuracy,
      Accuracy.roundToNearestEven] at h ⊢
  · constructor <;> omega
  · constructor <;> omega
  · rcases Nat.mod_two_eq_zero_or_one mantissa with even | odd
    · rw [even, Nat.add_zero]
      constructor <;> omega
    · rw [odd]
      constructor <;> omega
  · constructor <;> omega

namespace Nearest

variable {nearest bound : Nat}

theorem le (h : Nearest m d nearest) (positive : 0 < d) (small : m < bound * d) :
    nearest ≤ bound := by
  by_contra beyond
  have hmore : (bound + 1) * d ≤ nearest * d := Nat.mul_le_mul_right _ (by omega)
  have habove := h.above
  rw [Nat.mul_assoc] at habove
  rw [Nat.add_mul, Nat.one_mul] at hmore
  omega

theorem ge (h : Nearest m d nearest) (positive : 0 < d) (large : bound * d ≤ m) :
    bound ≤ nearest := by
  by_contra short
  have hless : (nearest + 1) * d ≤ bound * d := Nat.mul_le_mul_right _ (by omega)
  have hbelow := h.below
  rw [Nat.mul_assoc] at hbelow
  rw [Nat.add_mul, Nat.one_mul] at hless
  omega

end Nearest

theorem Nearest.eq_self {nearest : Nat} (h : Nearest m 1 nearest) : nearest = m := by
  have habove := h.above
  have hbelow := h.below
  omega

/-- The exponent at which a number of binary64 keeps 53 digits, or the least exponent. -/
def exponentFor (m : Nat) (e : Int) : Int := max (m.log2 + 1 + e - 53) (-1074)

theorem shiftToTargetExponent_eq (m : Nat) (e : Int) (accuracy : Accuracy) :
    shiftToTargetExponent .binary64 m e accuracy =
      (ExtendedMantissa.ofMantissaAndAccuracy m accuracy >>> (exponentFor m e - e).toNat,
        e + (exponentFor m e - e).toNat) := by
  simp [shiftToTargetExponent, shiftToExponent, Format.targetExponent, totalExponent, exponentFor,
    Format.minExponent, Format.mantissaBits]

/-- Digits that have been rounded at an exponent. -/
structure Fits (m : Nat) (e : Int) : Prop where
  bits : m ≤ 2 ^ 53
  least : -1074 ≤ e
  full : -1074 < e → 2 ^ 52 ≤ m

/-- Digits and an exponent as binary64 has them. -/
structure Canonical (m : Nat) (e : Int) : Prop where
  bits : m < 2 ^ 53
  least : -1074 ≤ e
  full : -1074 < e → 2 ^ 52 ≤ m

/-- Digits that have overflowed lose one, and the exponent grows. -/
def carried (m : Nat) (e : Int) : Nat × Int := if m = 2 ^ 53 then (2 ^ 52, e + 1) else (m, e)

theorem Fits.canonical {e : Int} (fits : Fits m e) :
    Canonical (carried m e).1 (carried m e).2 := by
  obtain ⟨bits, least, full⟩ := fits
  unfold carried
  split
  next => exact ⟨Nat.pow_lt_pow_right (by decide) (by decide), by omega, fun _ => Nat.le_refl _⟩
  next inside => exact ⟨by omega, least, full⟩

/-- A number as it is written down. -/
def written (s : Sign) (number : Nat × Int) : UnpackedFloat :=
  if h : number.1 = 0 then .zero s else .finite s number.1 number.2 (Nat.pos_of_ne_zero h)

/-- What has been rounded is rounded again only if its digits have overflowed. -/
theorem carried_eq {e : Int} (fits : Fits m e) :
    ((ExtendedMantissa.ofMantissaAndAccuracy m .exact >>> (exponentFor m e - e).toNat).mantissa,
      e + (exponentFor m e - e).toNat) = carried m e := by
  have hleast := fits.least
  unfold carried
  split
  next overflow =>
    have hlog : m.log2 = 53 := by rw [overflow]; exact Nat.log2_two_pow
    have hshift : (exponentFor m e - e).toNat = 1 := by
      simp only [exponentFor, hlog]
      omega
    rw [hshift, overflow]
    rfl
  next inside =>
    have hlog : m.log2 ≤ 52 := by
      by_cases zero : m = 0
      · rw [zero]
        exact Nat.zero_le _
      · have hbits := fits.bits
        exact Nat.le_of_lt_succ ((Nat.log2_lt zero).mpr (by omega))
    have hshift : (exponentFor m e - e).toNat = 0 := by
      simp only [exponentFor]
      omega
    rw [hshift]
    exact Prod.ext rfl (Int.add_zero e)

section

variable {q k : Nat} {e : Int}

/-- What is left of a number at its exponent has 53 digits at most. -/
theorem lt_two_pow_of_shift (shift : (exponentFor q e - e).toNat = k) : q < 2 ^ 53 * 2 ^ k := by
  rw [← Nat.pow_add]
  refine Nat.lt_of_lt_of_le Nat.lt_log2_self (Nat.pow_le_pow_right Nat.zero_lt_two ?_)
  have hleast : q.log2 + 1 + e - 53 ≤ exponentFor q e := Int.le_max_left _ _
  omega

/-- It has no fewer unless its exponent is the least one. -/
theorem two_pow_le_of_shift (shift : (exponentFor q e - e).toNat = k) (placed : e ≤ exponentFor q e)
    (more : -1074 < exponentFor q e) : 2 ^ 52 * 2 ^ k ≤ q := by
  have hexact : exponentFor q e = q.log2 + 1 + e - 53 := by
    simp only [exponentFor] at more ⊢
    omega
  have some : q ≠ 0 := by
    rintro rfl
    rw [Nat.log2_zero] at hexact
    omega
  calc 2 ^ 52 * 2 ^ k = 2 ^ q.log2 := by rw [← Nat.pow_add, show q.log2 = 52 + k by omega]
    _ ≤ q := Nat.log2_self_le some

/-- A quotient is rounded to 53 digits, if it is placed below the exponent that leaves so many. -/
theorem round_written (s : Sign) {accuracy : Accuracy} (positive : 0 < d)
    (stands : Stands (.ofMantissaAndAccuracy q accuracy) m d) (placed : e ≤ exponentFor q e)
    (shift : (exponentFor q e - e).toNat = k) :
    ∃ nearest, Nearest m (d * 2 ^ k) nearest ∧ Fits nearest (exponentFor q e) ∧
      roundWithAccuracy .binary64 s q e accuracy =
        written s (carried nearest (exponentFor q e)) := by
  have hplace : 0 < d * 2 ^ k := Nat.mul_pos positive (Nat.two_pow_pos k)
  have hshifted : e + k = exponentFor q e := by omega
  have hmantissa : (ExtendedMantissa.ofMantissaAndAccuracy q accuracy).mantissa = q := by
    unfold ExtendedMantissa.ofMantissaAndAccuracy
    split <;> rfl
  obtain ⟨nearest, hnearest⟩ : ∃ nearest, (ExtendedMantissa.ofMantissaAndAccuracy q accuracy
      >>> k).roundedMantissa = nearest := ⟨_, rfl⟩
  have near := (stands.shiftRight positive k).nearest hplace
  have hlow := stands.le
  have hhigh := stands.lt positive
  rw [hnearest] at near
  rw [hmantissa] at hlow hhigh
  have fits : Fits nearest (exponentFor q e) := by
    refine ⟨near.le hplace ?_, Int.le_max_right _ _, fun more => near.ge hplace ?_⟩
    · calc m < (q + 1) * d := hhigh
        _ ≤ 2 ^ 53 * 2 ^ k * d := Nat.mul_le_mul_right _ (lt_two_pow_of_shift shift)
        _ = 2 ^ 53 * (d * 2 ^ k) := by ring
    · calc 2 ^ 52 * (d * 2 ^ k) = 2 ^ 52 * 2 ^ k * d := by ring
        _ ≤ q * d := Nat.mul_le_mul_right _ (two_pow_le_of_shift shift placed more)
        _ ≤ m := hlow
  refine ⟨nearest, near, fits, ?_⟩
  rw [← carried_eq fits]
  simp only [roundWithAccuracy, shiftToTargetExponent_eq, shift, hshifted, hnearest]
  rfl

end

theorem log2_mul_two_pow {n : Nat} (positive : n ≠ 0) (k : Nat) :
    (n * 2 ^ k).log2 = n.log2 + k := by
  rw [Nat.log2_eq_iff (Nat.mul_ne_zero positive (Nat.two_pow_pos k).ne')]
  have hnext : 2 ^ (n.log2 + k + 1) = 2 ^ (n.log2 + 1) * 2 ^ k := by ring
  rw [hnext, Nat.pow_add]
  exact ⟨Nat.mul_le_mul_right _ (Nat.log2_self_le positive),
    Nat.mul_lt_mul_of_pos_right Nat.lt_log2_self (Nat.two_pow_pos k)⟩

/-- Writing a number with a smaller exponent does not change the exponent at which it is rounded. -/
theorem exponentFor_mul_two_pow {n : Nat} (positive : n ≠ 0) (k : Nat) (e : Int) :
    exponentFor (n * 2 ^ k) (e - k) = exponentFor n e := by
  simp only [exponentFor, log2_mul_two_pow positive]
  omega

/-- What is rounded is first written with an exponent that is small enough. -/
theorem round_eq (s : Sign) (m : Nat) (e : Int) :
    UnpackedFloat.round .binary64 s m e =
      roundWithAccuracy .binary64 s (m * 2 ^ (e - exponentFor m e).toNat)
        (e - (e - exponentFor m e).toNat) .exact := by
  simp [UnpackedFloat.round, decreaseExponent, Nat.shiftLeft_eq, Format.targetExponent,
    totalExponent, exponentFor, Format.minExponent, Format.mantissaBits]

end Binary64

end BrowserSteps
