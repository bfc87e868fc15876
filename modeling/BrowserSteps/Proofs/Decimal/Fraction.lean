import BrowserSteps.Number
import BrowserSteps.Proofs.Decimal.Quotient

/-!
Whole numbers divided by a power of ten, as spans of time in seconds are given. Such a number is
computed as the quotient of numbers that are written down as they are, so it is positive unless the
whole number is zero.
-/

namespace BrowserSteps

namespace Binary64

open Float.Model Float.Model.UnpackedFloat

/-- A number is computed as the quotient of a whole number by a power of ten. -/
def IsFraction (x : Float) (n k : Nat) : Prop :=
  ∃ m e d f, ∃ (hm : 0 < m) (hd : 0 < d), value m e = n ∧ value d f = 10 ^ k ∧
    x.toModel = Float.Model.pack
      (UnpackedFloat.div .binary64 (.finite .positive m e hm) (.finite .positive d f hd))

theorem value_shifted (n k : Nat) : value (n * 2 ^ k) (-k) = n := by
  simp only [value, Nat.cast_mul, Nat.cast_pow, Nat.cast_ofNat, zpow_neg, zpow_natCast]
  field_simp

/-- A power of ten as it is written down. -/
def powerOfTen (k : Nat) (le : k ≤ 22) : Float :=
  have known : k < Float.exactlyRepresentablePowersOfTen.size := Nat.lt_succ_of_le le
  Float.exactlyRepresentablePowersOfTen[k]

/-- A power of ten that is exactly a number of binary64, with as many digits as a mantissa has. -/
structure Exact (k j : Nat) : Prop where
  pos : 0 < k
  le : k ≤ 22
  unpack : (powerOfTen k le).toModel.unpack = .finite .positive (10 ^ k * 2 ^ j) (-j)
    (Nat.mul_pos (Nat.pow_pos Nat.succ_pos') (Nat.two_pow_pos j))

theorem exact_thousand : Exact 3 43 := ⟨by decide, by decide, rfl⟩

theorem exact_million : Exact 6 33 := ⟨by decide, by decide, rfl⟩

variable {k j : Nat}

/-- Both numbers are written down as they are. -/
theorem isFraction_of_small (power : Exact k j) {n : Nat} (positive : 0 < n) (small : n < 2 ^ 53) :
    IsFraction (Float.ofScientific n true k) n k := by
  have hlog : n.log2 < 53 := (Nat.log2_lt positive.ne').mpr small
  obtain ⟨i, digits⟩ : ∃ i, n.log2 + i = 52 := ⟨52 - n.log2, by omega⟩
  have hpower : value (10 ^ k * 2 ^ j) (-j) = 10 ^ k := by
    rw [value_shifted]
    push_cast
    rfl
  refine ⟨_, _, _, _, Nat.mul_pos positive (Nat.two_pow_pos i),
    Nat.mul_pos (Nat.pow_pos Nat.succ_pos') (Nat.two_pow_pos j), value_shifted n i, hpower, ?_⟩
  rw [← unpack_toFloat positive digits, ← power.unpack, Float.ofScientific,
    dif_pos ⟨small, power.le⟩]
  rfl

/-- More digits than a mantissa has are divided before they are rounded. -/
theorem isFraction_of_large (power : Exact k j) {n : Nat} (large : 2 ^ 53 ≤ n) :
    IsFraction (Float.ofScientific n true k) n k := by
  have some : n ≠ 0 := by omega
  have hexponent : Int.negOfNat k = -(k : Int) := by cases k <;> rfl
  have hpos := power.pos
  have hle := power.le
  have hhigh : ¬ (-(k : Int) > 2 ^ Format.exponentBits .binary64) := by
    change ¬ (-(k : Int) > 2 ^ 11)
    omega
  have hlow : ¬ (-(k : Int) < -(2 ^ Format.exponentBits .binary64 + (n.log2 : Int))) := by
    change ¬ (-(k : Int) < -(2 ^ 11 + (n.log2 : Int)))
    omega
  refine ⟨n, 0, 10 ^ k, 0, Nat.pos_of_ne_zero some, Nat.pow_pos Nat.succ_pos', by simp [value],
    by simp [value], ?_⟩
  rw [Float.ofScientific, dif_neg (by omega)]
  change Float.Model.pack (UnpackedFloat.ofScientific .binary64 n (Int.negOfNat k)) = _
  rw [UnpackedFloat.ofScientific, dif_neg some, hexponent, if_neg hhigh, if_neg hlow,
    if_neg (by omega)]
  simp only [neg_neg, Int.toNat_natCast]

/-- The number that is nearest to such a quotient is zero, beyond all or computed as the quotient. -/
theorem floatOfDecimal_cases (power : Exact k j) (n : Nat) :
    n = 0 ∧ Text.floatOfDecimal false n (-k) = 0.0 ∨
      (Text.floatOfDecimal false n (-k)).toModel.unpack = .infinity .positive ∨
      IsFraction (Text.floatOfDecimal false n (-k)) n k := by
  have hpos := power.pos
  have hle := power.le
  unfold Text.floatOfDecimal
  simp only [Bool.false_eq_true, if_false]
  split
  next zero => exact .inl ⟨zero, rfl⟩
  next some =>
    split
    next many => exact .inr (.inl rfl)
    next few =>
      rw [if_neg (by omega), decide_eq_true (show -(k : Int) < 0 by omega), Int.natAbs_neg,
        Int.natAbs_natCast]
      right
      right
      rcases Nat.lt_or_ge n (2 ^ 53) with small | large
      · exact isFraction_of_small power (Nat.pos_of_ne_zero some) small
      · exact isFraction_of_large power large

/-- A quotient that is no less than some positive number of binary64 is positive. -/
theorem IsFraction.positive {x y : Float} {n l : Nat} {g : Int} {hl : 0 < l} (h : IsFraction x n k)
    (hy : y.toModel.unpack = .finite .positive l g hl) (less : value l g * 10 ^ k ≤ n) :
    0.0 < x := by
  obtain ⟨m, e, d, f, hm, hd, hn, hpower, hx⟩ := h
  have hle : y ≤ x := le_quotient hm hd hy hx (by rwa [hn, hpower])
  rcases unsigned_quotient hm hd hx with zero | positive
  · rw [le_iff, hy, zero] at hle
    cases hle
  · exact positive

end Binary64

end BrowserSteps
