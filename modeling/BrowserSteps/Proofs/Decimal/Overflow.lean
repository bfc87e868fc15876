import BrowserSteps.Number
import BrowserSteps.Proofs.Decimal.Packing

/-!
Whole numbers as binary64. A whole number has a nearest binary64 number exactly if it lies below the
middle between the largest one and the next power of two.
-/

namespace BrowserSteps

namespace Binary64

open Float.Model Float.Model.UnpackedFloat

theorem isFinite_neg (x : Float) : (-x).isFinite = x.isFinite := by
  have hneg : (-x).isFinite = (Float.Model.pack x.toModel.unpack.neg).isFinite := rfl
  rw [hneg, Bool.eq_iff_iff]
  change _ ↔ x.toModel.unpack.isFinite = true
  cases hx : x.toModel.unpack with
  | infinity s => cases s <;> decide
  | notANumber => decide
  | zero s => cases s <;> decide
  | finite s m e positive =>
      obtain ⟨canonical, small⟩ := canonical_of_unpack hx
      have hread := unpack_pack_finite (-s) positive canonical
      rw [if_pos small] at hread
      exact iff_of_true (congrArg UnpackedFloat.isFinite hread) rfl

/-- The middle between the largest number of binary64 and the next power of two. -/
def limit : Nat := 2 ^ 1024 - 2 ^ 970

/-- The exponent is named, so that nobody evaluates the power. -/
theorem exists_limit : ∃ j, j = 970 ∧ limit = (2 ^ 54 - 1) * 2 ^ j := by
  refine ⟨970, rfl, ?_⟩
  rw [Nat.sub_one_mul, ← Nat.pow_add, limit]

theorem bounds_of_middle (j : Nat) :
    2 ^ (53 + j) ≤ (2 ^ 54 - 1) * 2 ^ j ∧ (2 ^ 54 - 1) * 2 ^ j ≤ 2 ^ (54 + j) := by
  rw [Nat.pow_add, Nat.pow_add]
  exact ⟨Nat.mul_le_mul_right _ (by decide), Nat.mul_le_mul_right _ (by decide)⟩

theorem ofScientific_eq {n : Nat} (large : 2 ^ 53 ≤ n) : Float.ofScientific n false 0 =
    ⟨Float.Model.pack (roundWithAccuracy .binary64 .positive (n * 2 ^ 53) (-53) .exact)⟩ := by
  have some : n ≠ 0 := by omega
  have hsmall : ¬ (Int.ofNat 0 < -(2 ^ 11 + (n.log2 : Int))) := by
    simp only [Int.ofNat_eq_natCast]
    omega
  rw [Float.ofScientific, dif_neg (by omega)]
  simp only [Bool.false_eq_true, if_false, Float.Model.ofScientific, UnpackedFloat.ofScientific,
    dif_neg some]
  rw [if_neg (by decide), if_neg hsmall, if_pos (by decide)]
  simp only [UnpackedFloat.mul, Format.mantissaBits, Nat.shiftLeft_eq, Int.ofNat_eq_natCast,
    Nat.cast_zero, Int.toNat_zero, Nat.pow_zero, Nat.mul_one]
  rfl

/-- A product that is rounded is finite unless its exponent is beyond the largest. -/
theorem isFinite_round {m : Nat} {e : Int} (placed : e ≤ exponentFor m e) {k : Nat}
    (shift : (exponentFor m e - e).toNat = k) :
    ∃ nearest, Nearest m (2 ^ k) nearest ∧ Fits nearest (exponentFor m e) ∧
      ((Float.Model.pack (roundWithAccuracy .binary64 .positive m e .exact)).isFinite = true ↔
        (carried nearest (exponentFor m e)).1 = 0 ∨
          (carried nearest (exponentFor m e)).2 ≤ 971) := by
  obtain ⟨nearest, near, fits, hwritten⟩ :=
    round_written .positive Nat.one_pos (stands_exact m) placed shift
  rw [Nat.one_mul] at near
  exact ⟨nearest, near, fits, hwritten ▸ isFinite_pack_written .positive fits.canonical⟩

theorem snd_carried_le (m : Nat) (e : Int) : (carried m e).2 ≤ e + 1 := by
  unfold carried
  split
  · exact Int.le_refl _
  · exact Int.le_add_one (Int.le_refl e)

/-- The number one, as it is written down. -/
theorem unpack_one : Float.exactlyRepresentablePowersOfTen[0].toModel.unpack =
    .finite .positive (2 ^ 52) (-52) (by decide) := rfl

theorem isFinite_ofScientific_of_small {n : Nat} (positive : 0 < n) (small : n < 2 ^ 53) :
    (Float.ofScientific n false 0).isFinite = true := by
  have hlog : n.log2 < 53 := (Nat.log2_lt positive.ne').mpr small
  obtain ⟨k, digits⟩ : ∃ k, n.log2 + k = 52 := ⟨52 - n.log2, by omega⟩
  have hplace : exponentFor (n * 2 ^ k * 2 ^ 52) (-k + -52) = -k := by
    have hexponent : exponentFor n 0 = -k := by
      simp only [exponentFor]
      omega
    have hsum : -(k : Int) + -52 = 0 - (k + 52 : Nat) := by omega
    rw [hsum, Nat.mul_assoc, ← Nat.pow_add, exponentFor_mul_two_pow positive.ne', hexponent]
  rw [Float.ofScientific, dif_pos ⟨small, by decide⟩]
  change (Float.Model.pack (UnpackedFloat.mul .binary64 n.toUInt64.toFloat.toModel.unpack
    Float.exactlyRepresentablePowersOfTen[0].toModel.unpack)).isFinite = true
  rw [unpack_one, unpack_toFloat positive digits]
  obtain ⟨nearest, -, -, hfinite⟩ := isFinite_round (m := n * 2 ^ k * 2 ^ 52) (e := -k + -52)
    (by omega) rfl
  refine hfinite.mpr (.inr (Int.le_trans (snd_carried_le _ _) ?_))
  omega

/-- The digits of a number just below a power of two overflow from the middle on: there the number
of 53 digits that is nearest to it is odd. -/
theorem Nearest.overflows_iff {n j nearest : Nat} (h : Nearest (n * 2 ^ 53) (2 ^ (54 + j)) nearest)
    (bits : nearest ≤ 2 ^ 53) : nearest = 2 ^ 53 ↔ (2 ^ 54 - 1) * 2 ^ j ≤ n := by
  obtain ⟨above, below, even⟩ := h
  have some := Nat.two_pow_pos j
  rw [Nat.pow_add] at above below even
  generalize 2 ^ j = unit at above below even some ⊢
  constructor
  · rintro rfl
    omega
  · intro beyond
    by_contra less
    have hless : nearest * unit ≤ (2 ^ 53 - 1) * unit := Nat.mul_le_mul_right _ (by omega)
    have hdouble : 2 * nearest * (2 ^ 54 * unit) = 2 ^ 55 * (nearest * unit) := by ring
    rw [hdouble] at below even
    have hfull : nearest * unit = (2 ^ 53 - 1) * unit := by omega
    have hodd : nearest = 2 ^ 53 - 1 := Nat.eq_of_mul_eq_mul_right some hfull
    have heven := even (by omega)
    omega

theorem isFinite_ofScientific_of_large {n : Nat} (large : 2 ^ 53 ≤ n) :
    (Float.ofScientific n false 0).isFinite = true ↔ n < limit := by
  have some : n ≠ 0 := by omega
  have hbits : 53 ≤ n.log2 := (Nat.le_log2 some).mpr large
  have hlow := Nat.log2_self_le some
  have hhigh : n < 2 ^ (n.log2 + 1) := Nat.lt_log2_self
  have hplace : exponentFor (n * 2 ^ 53) (-53) = n.log2 - 52 := by
    have hsame : exponentFor (n * 2 ^ 53) (0 - 53) = exponentFor n 0 :=
      exponentFor_mul_two_pow some 53 0
    rw [← Int.zero_sub, hsame, exponentFor]
    omega
  obtain ⟨nearest, near, fits, hfinite⟩ := isFinite_round (m := n * 2 ^ 53) (e := -53)
    (k := n.log2 + 1) (by omega) (by omega)
  rw [ofScientific_eq large]
  change (Float.Model.pack _).isFinite = true ↔ _
  obtain ⟨j, hj, hlimit⟩ := exists_limit
  have hfull : 2 ^ 52 ≤ nearest := fits.full (by omega)
  rw [hfinite, hplace, hlimit]
  unfold carried
  rcases Nat.lt_trichotomy n.log2 1023 with less | same | more
  · refine iff_of_true (.inr (by split <;> dsimp only <;> omega)) ?_
    have hpow : 2 ^ (n.log2 + 1) ≤ 2 ^ (53 + j) :=
      Nat.pow_le_pow_right Nat.zero_lt_two (by omega)
    exact hhigh.trans_le (hpow.trans (bounds_of_middle j).1)
  · rw [show n.log2 + 1 = 54 + j by omega] at near
    rw [← Nat.not_le, ← near.overflows_iff fits.bits, same]
    split
    next overflow => exact iff_of_false (by decide) (not_not_intro overflow)
    next inside => exact iff_of_true (.inr (Int.le_refl 971)) inside
  · refine iff_of_false (by split <;> dsimp only <;> omega) (Nat.not_lt.mpr ?_)
    have hpow : 2 ^ (54 + j) ≤ 2 ^ n.log2 := Nat.pow_le_pow_right Nat.zero_lt_two (by omega)
    exact (bounds_of_middle j).2.trans (hpow.trans hlow)

theorem isFinite_ofScientific {n : Nat} (positive : 0 < n) :
    (Float.ofScientific n false 0).isFinite = true ↔ n < limit := by
  rcases Nat.lt_or_ge n (2 ^ 53) with small | large
  · refine iff_of_true (isFinite_ofScientific_of_small positive small) ?_
    obtain ⟨j, hj, hlimit⟩ := exists_limit
    have hpow : 2 ^ 53 ≤ 2 ^ (53 + j) := Nat.pow_le_pow_right Nat.zero_lt_two (by omega)
    rw [hlimit]
    exact small.trans_le (hpow.trans (bounds_of_middle j).1)
  · exact isFinite_ofScientific_of_large large

/-- A number of more than 400 digits is far beyond the limit. -/
theorem limit_le_of_digits {n : Nat} (many : 400 < (Nat.toDigits 10 n).length) : limit ≤ n := by
  obtain ⟨k, hk⟩ : ∃ k, k = 400 := ⟨400, rfl⟩
  obtain ⟨j, hj, hlimit⟩ := exists_limit
  have hdigits : 10 ^ k ≤ n := by
    rw [← Nat.not_lt, ← Nat.length_toDigits_le_iff (by decide) (by omega)]
    omega
  have hpow : 2 ^ (54 + j) ≤ 2 ^ (3 * k) := Nat.pow_le_pow_right Nat.zero_lt_two (by omega)
  have height : 2 ^ (3 * k) ≤ 10 ^ k := by
    rw [Nat.pow_mul]
    exact Nat.pow_le_pow_left (by decide) k
  rw [hlimit]
  exact (bounds_of_middle j).2.trans (hpow.trans (height.trans hdigits))

theorem isFinite_floatOfDecimal (negative : Bool) (n : Nat) :
    (Text.floatOfDecimal negative n 0).isFinite = true ↔ n < limit := by
  have hsigned (x : Float) : (if negative then -x else x).isFinite = x.isFinite := by
    cases negative
    · rfl
    · exact isFinite_neg x
  simp only [Text.floatOfDecimal, hsigned]
  split
  next zero =>
    obtain ⟨j, -, hlimit⟩ := exists_limit
    refine iff_of_true (by decide +kernel) ?_
    rw [zero, hlimit]
    exact Nat.mul_pos (by decide) (Nat.two_pow_pos j)
  next some =>
    split
    next many =>
      exact iff_of_false (by decide +kernel) (Nat.not_lt.mpr (limit_le_of_digits (by omega)))
    next few =>
      rw [if_neg (by omega)]
      exact isFinite_ofScientific (Nat.pos_of_ne_zero some)

end Binary64

/-- A whole number has no nearest binary64 number exactly if it has come to the middle between the
largest one and the next power of two, whatever its sign. -/
theorem floatOfInt?_eq_none_iff {n : Int} :
    floatOfInt? n = none ↔ Binary64.limit ≤ n.natAbs := by
  have hfinite := Binary64.isFinite_floatOfDecimal (n < 0) n.natAbs
  simp only [floatOfInt?]
  rw [← Nat.not_lt, ← hfinite]
  split <;> simp [*]

example : (floatOfInt? (2 ^ 1024 - 2 ^ 970)).isNone ∧
    (floatOfInt? (2 ^ 1024 - 2 ^ 970 - 1)).isSome := by
  decide +kernel

end BrowserSteps
