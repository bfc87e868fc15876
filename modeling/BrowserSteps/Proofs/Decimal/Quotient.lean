import BrowserSteps.Proofs.Decimal.Order

/-!
Quotients in binary64. A quotient is computed with as many digits as its rounding needs, and it is no
less than any number of binary64 that is no more than the exact quotient.
-/

namespace BrowserSteps

namespace Binary64

open Float.Model Float.Model.UnpackedFloat

/-- The number that digits and an exponent stand for. -/
def value (m : Nat) (e : Int) : ℚ := m * 2 ^ e

variable {m n : Nat} {e f : Int}

/-- The digits of a quotient are enough for the exponent at which it is rounded. -/
theorem div_eq (hm : 0 < m) (hn : 0 < n) : ∃ (j : Nat) (t : Int), t + j = e - f ∧
    t ≤ exponentFor (m * 2 ^ j / n) t ∧
    UnpackedFloat.div .binary64 (.finite .positive m e hm) (.finite .positive n f hn) =
      roundWithAccuracy .binary64 .positive (m * 2 ^ j / n) t
        (accuracyOfFraction (m * 2 ^ j % n) n) := by
  obtain ⟨t, ht⟩ : ∃ t, min (e - f) (max (m.log2 + 1 + e - (n.log2 + 1 + f) - 53) (-1074)) = t :=
    ⟨_, rfl⟩
  obtain ⟨j, hj⟩ : ∃ j, (e - f - t).toNat = j := ⟨_, rfl⟩
  refine ⟨j, t, by omega, ?_, ?_⟩
  · by_cases least : t ≤ -1074
    · exact least.trans (Int.le_max_right _ _)
    · have hbits : n.log2 + 1 + 52 ≤ m.log2 + j := by omega
      have hquotient : 2 ^ 52 ≤ m * 2 ^ j / n := by
        rw [Nat.le_div_iff_mul_le hn]
        calc 2 ^ 52 * n ≤ 2 ^ 52 * 2 ^ (n.log2 + 1) := Nat.mul_le_mul_left _ Nat.lt_log2_self.le
          _ = 2 ^ (n.log2 + 1 + 52) := by ring
          _ ≤ 2 ^ (m.log2 + j) := Nat.pow_le_pow_right Nat.zero_lt_two hbits
          _ = 2 ^ m.log2 * 2 ^ j := Nat.pow_add ..
          _ ≤ m * 2 ^ j := Nat.mul_le_mul_right _ (Nat.log2_self_le hm.ne')
      have some : m * 2 ^ j / n ≠ 0 := by omega
      have hlog : 52 ≤ (m * 2 ^ j / n).log2 := (Nat.le_log2 some).mpr hquotient
      simp only [exponentFor]
      omega
  · have htarget (total : Int) :
        Format.targetExponent .binary64 total = max (total - 53) (-1074) := by
      simp [Format.targetExponent, Format.minExponent, Format.mantissaBits]
    simp only [UnpackedFloat.div, divCore, htarget, totalExponent, ht, hj, Nat.shiftLeft_eq]
    rfl

/-- What is less exactly is less in whole digits. -/
theorem digits_le {l j k i : Nat} {g t : Int} (less : value l g * value n f ≤ value m e)
    (hm : t + j = e - f) (hl : g = t + k + i) : l * (n * 2 ^ k) * 2 ^ i ≤ m * 2 ^ j := by
  have hunit : (0 : ℚ) < 2 ^ (t + f) := zpow_pos two_pos _
  have hleft : value l g * value n f = (l * (n * 2 ^ k) * 2 ^ i : ℕ) * 2 ^ (t + f) := by
    have hpow : (2 : ℚ) ^ g * 2 ^ f = 2 ^ k * 2 ^ i * 2 ^ (t + f) := by
      rw [← zpow_natCast, ← zpow_natCast, ← zpow_add₀ two_ne_zero, ← zpow_add₀ two_ne_zero,
        ← zpow_add₀ two_ne_zero]
      congr 1
      omega
    simp only [value, Nat.cast_mul, Nat.cast_pow, Nat.cast_ofNat]
    linear_combination (l : ℚ) * n * hpow
  have hright : value m e = (m * 2 ^ j : ℕ) * 2 ^ (t + f) := by
    have hpow : (2 : ℚ) ^ e = 2 ^ j * 2 ^ (t + f) := by
      rw [← zpow_natCast, ← zpow_add₀ two_ne_zero]
      congr 1
      omega
    simp only [value, Nat.cast_mul, Nat.cast_pow, Nat.cast_ofNat]
    linear_combination (m : ℚ) * hpow
  rw [hleft, hright, mul_le_mul_iff_of_pos_right hunit] at less
  exact_mod_cast less

theorem quotient_written (hm : 0 < m) (hn : 0 < n) : ∃ (j k nearest : Nat) (t : Int),
    t + j = e - f ∧ m * 2 ^ j < n * 2 ^ k * 2 ^ 53 ∧ Nearest (m * 2 ^ j) (n * 2 ^ k) nearest ∧
    Fits nearest (t + k) ∧
    UnpackedFloat.div .binary64 (.finite .positive m e hm) (.finite .positive n f hn) =
      written .positive (carried nearest (t + k)) := by
  obtain ⟨j, t, hexponent, placed, hdiv⟩ := div_eq (e := e) (f := f) hm hn
  obtain ⟨k, hk⟩ : ∃ k, (exponentFor (m * 2 ^ j / n) t - t).toNat = k := ⟨_, rfl⟩
  have hplace : exponentFor (m * 2 ^ j / n) t = t + k := by omega
  obtain ⟨nearest, near, fits, hround⟩ :=
    round_written .positive hn (stands_quotient (m * 2 ^ j) hn) placed hk
  rw [hplace] at fits hround
  refine ⟨j, k, nearest, t, hexponent, ?_, near, fits, hdiv.trans hround⟩
  have hquotient := lt_two_pow_of_shift hk
  rw [Nat.div_lt_iff_lt_mul hn] at hquotient
  calc m * 2 ^ j < 2 ^ 53 * 2 ^ k * n := hquotient
    _ = n * 2 ^ k * 2 ^ 53 := by ring

theorem unsigned_quotient {x : Float} (hm : 0 < m) (hn : 0 < n)
    (hx : x.toModel = Float.Model.pack (UnpackedFloat.div .binary64 (.finite .positive m e hm)
      (.finite .positive n f hn))) : Unsigned x := by
  obtain ⟨j, k, nearest, t, -, -, -, fits, hdiv⟩ := quotient_written (e := e) (f := f) hm hn
  rw [hdiv] at hx
  by_cases some : nearest = 0
  · left
    subst some
    rw [hx]
    exact unpack_packedZero
  · exact .inr (positive_of_rounded some fits hx)

/-- A quotient is rounded to no less than any number of binary64 that is no more than the exact
quotient. -/
theorem le_quotient {y x : Float} {l : Nat} {g : Int} {hl : 0 < l} (hm : 0 < m) (hn : 0 < n)
    (hy : y.toModel.unpack = .finite .positive l g hl)
    (hx : x.toModel = Float.Model.pack (UnpackedFloat.div .binary64 (.finite .positive m e hm)
      (.finite .positive n f hn)))
    (less : value l g * value n f ≤ value m e) : y ≤ x := by
  obtain ⟨⟨-, leastY, fullY⟩, -⟩ := canonical_of_unpack hy
  obtain ⟨j, k, nearest, t, hexponent, small, near, fits, hdiv⟩ :=
    quotient_written (e := e) (f := f) hm hn
  have positive : 0 < n * 2 ^ k := Nat.mul_pos hn (Nat.two_pow_pos k)
  rw [hdiv] at hx
  refine le_of_rounded fits hy hx ?_
  rcases Int.lt_or_le g (t + k) with lower | above
  · have hfull := fits.full (by omega)
    exact .inl ⟨lower, by omega⟩
  · obtain ⟨i, hi⟩ : ∃ i : Nat, g = t + k + i := ⟨(g - (t + k)).toNat, by omega⟩
    have hdigits := digits_le less hexponent hi
    cases i with
    | zero =>
        rw [Nat.pow_zero, Nat.mul_one] at hdigits
        exact .inr ⟨by omega, near.ge positive hdigits⟩
    | succ i =>
        have hfull := fullY (by have := fits.least; omega)
        have hlarge : 2 ^ 52 * (n * 2 ^ k) * 2 ^ 1 ≤ m * 2 ^ j :=
          (Nat.mul_le_mul (Nat.mul_le_mul_right _ hfull)
            (Nat.pow_le_pow_right Nat.zero_lt_two (by omega))).trans hdigits
        omega

end Binary64

end BrowserSteps
