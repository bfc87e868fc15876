import BrowserSteps.Proofs.Decimal.Packing

/-!
The order of the numbers of binary64. Of two positive numbers the one with the larger exponent is the
larger. What is positive exactly stays so when it is rounded, if it is no less than the least number:
a difference always, and a product with a number that is at least one.
-/

namespace BrowserSteps

namespace Binary64

open Float.Model Float.Model.UnpackedFloat

theorem le_iff {x y : Float} : x ≤ y ↔ x.toModel.unpack.le y.toModel.unpack = true := by
  change decide (x.toModel ≤ y.toModel) = true ↔ _
  exact decide_eq_true_iff

theorem lt_iff {x y : Float} : x < y ↔ x.toModel.unpack.lt y.toModel.unpack = true := by
  change decide (x.toModel < y.toModel) = true ↔ _
  exact decide_eq_true_iff

theorem unpack_zero : (0.0 : Float).toModel.unpack = .zero .positive := rfl

theorem positive_iff {x : Float} : 0.0 < x ↔ x.toModel.unpack = .infinity .positive ∨
    ∃ m e h, x.toModel.unpack = .finite .positive m e h := by
  rw [lt_iff, unpack_zero]
  cases x.toModel.unpack with
  | infinity s => cases s <;> simp [UnpackedFloat.lt, UnpackedFloat.compare]
  | notANumber => simp [UnpackedFloat.lt, UnpackedFloat.compare]
  | zero s => simp [UnpackedFloat.lt, UnpackedFloat.compare]
  | finite s m e h => cases s <;> simp [UnpackedFloat.lt, UnpackedFloat.compare, h]

/-- What is no less than zero, written without a sign. -/
def Unsigned (x : Float) : Prop := x.toModel.unpack = .zero .positive ∨ 0.0 < x

theorem Unsigned.cases {x : Float} (h : Unsigned x) : x.toModel.unpack = .zero .positive ∨
    x.toModel.unpack = .infinity .positive ∨
    ∃ m e h, x.toModel.unpack = .finite .positive m e h :=
  h.imp_right positive_iff.mp

theorem zero_le {x y : Float} (hx : x.toModel.unpack = .zero .positive) (hy : Unsigned y) :
    x ≤ y := by
  rw [le_iff, hx]
  rcases hy.cases with read | read | ⟨m, e, h, read⟩ <;> rw [read] <;> rfl

theorem le_infinity {x y : Float} (hx : Unsigned x) (hy : y.toModel.unpack = .infinity .positive) :
    x ≤ y := by
  rw [le_iff, hy]
  rcases hx.cases with read | read | ⟨m, e, h, read⟩ <;> rw [read] <;> rfl

section

variable {x y : Float} {m n : Nat} {e f : Int} {hm : 0 < m} {hn : 0 < n}

/-- The exponents decide, and the digits if these are equal. -/
theorem le_iff_of_finite (hx : x.toModel.unpack = .finite .positive m e hm)
    (hy : y.toModel.unpack = .finite .positive n f hn) : x ≤ y ↔ e < f ∨ e = f ∧ m ≤ n := by
  rw [le_iff, hx, hy]
  simp only [UnpackedFloat.le, UnpackedFloat.compare, Option.any_some]
  rcases Int.lt_trichotomy e f with less | rfl | more
  · simp [compare_lt_iff_lt.mpr less, less, Ordering.then]
  · simp [Ordering.then, Nat.isLE_compare]
  · simp [compare_gt_iff_gt.mpr more, Ordering.then]
    omega

end

theorem carried_ne_zero {m : Nat} (some : m ≠ 0) (e : Int) : (carried m e).1 ≠ 0 := by
  unfold carried
  split
  · exact (Nat.two_pow_pos 52).ne'
  · exact some

/-- A number that has been rounded and is not zero is read off its bits, or infinity is. -/
theorem unpack_rounded {x : Float} {m : Nat} {e : Int} (some : m ≠ 0) (fits : Fits m e)
    (hx : x.toModel = Float.Model.pack (written .positive (carried m e))) :
    x.toModel.unpack = .infinity .positive ∨ x.toModel.unpack = .finite .positive (carried m e).1
      (carried m e).2 (Nat.pos_of_ne_zero (carried_ne_zero some e)) := by
  rw [hx, unpack_pack_written .positive fits.canonical]
  split
  next => exact .inr (dif_neg (carried_ne_zero some e))
  next => exact .inl rfl

/-- A number that has been rounded and is not zero is positive, even if it is beyond the largest. -/
theorem positive_of_rounded {x : Float} {m : Nat} {e : Int} (some : m ≠ 0) (fits : Fits m e)
    (hx : x.toModel = Float.Model.pack (written .positive (carried m e))) : 0.0 < x :=
  positive_iff.mpr ((unpack_rounded some fits hx).imp_right fun h => ⟨_, _, _, h⟩)

/-- Digits that overflow do not make the number less. -/
theorem le_of_rounded {x y : Float} {l m : Nat} {g e : Int} {hl : 0 < l} (fits : Fits m e)
    (hy : y.toModel.unpack = .finite .positive l g hl)
    (hx : x.toModel = Float.Model.pack (written .positive (carried m e)))
    (less : g < e ∧ m ≠ 0 ∨ g = e ∧ l ≤ m) : y ≤ x := by
  have some : m ≠ 0 := by omega
  rcases unpack_rounded some fits hx with infinite | finite
  · rw [le_iff, hy, infinite]
    rfl
  · rw [le_iff_of_finite hy finite]
    unfold carried
    split
    next overflow => exact .inl (by dsimp only; omega)
    next inside => dsimp only; omega

/-- What is no less than the least number of binary64 is not rounded to zero. -/
theorem Fits.ne_zero {m d nearest : Nat} {e : Int} (fits : Fits nearest e) (near : Nearest m d nearest)
    (positive : 0 < d) (large : e ≤ -1074 → d ≤ m) : nearest ≠ 0 := by
  by_cases more : -1074 < e
  · have hfull := fits.full more
    omega
  · refine Nat.ne_of_gt (near.ge positive ?_)
    rw [Nat.one_mul]
    exact large (Int.not_lt.mp more)

theorem round_positive (s : Sign) {m : Nat} {e : Int} (positive : 0 < m) (least : -1074 ≤ e) :
    ∃ nearest exponent, nearest ≠ 0 ∧ Fits nearest exponent ∧
      UnpackedFloat.round .binary64 s m e = written s (carried nearest exponent) := by
  obtain ⟨j, hj⟩ : ∃ j, (e - exponentFor m e).toNat = j := ⟨_, rfl⟩
  have hplace := exponentFor_mul_two_pow positive.ne' j e
  obtain ⟨nearest, near, fits, hround⟩ := round_written s Nat.one_pos
    (stands_exact (m * 2 ^ j)) (e := e - j) (by omega) rfl
  refine ⟨nearest, _, fits.ne_zero near (by positivity) fun small => ?_, fits,
    by rw [round_eq, hj, hround]⟩
  have hshift : (exponentFor (m * 2 ^ j) (e - j) - (e - j)).toNat = 0 := by omega
  rw [hshift, Nat.pow_zero]
  exact Nat.mul_pos positive (Nat.two_pow_pos j)

/-- The larger of two numbers has the larger digits at their common exponent. -/
theorem digits_lt {m n : Nat} {e f : Int} (hm : Canonical m e) (hn : Canonical n f)
    (less : ¬ (e < f ∨ e = f ∧ m ≤ n)) :
    n * 2 ^ (f - min e f).toNat < m * 2 ^ (e - min e f).toNat := by
  rcases Int.lt_or_eq_of_le (show f ≤ e by omega) with lower | rfl
  · have hleast := hn.least
    have hshift : (f - min e f).toNat = 0 := by omega
    have hpow : 2 ^ 1 ≤ 2 ^ (e - min e f).toNat :=
      Nat.pow_le_pow_right Nat.zero_lt_two (by omega)
    rw [hshift, Nat.pow_zero, Nat.mul_one]
    calc n < 2 ^ 52 * 2 ^ 1 := hn.bits
      _ ≤ m * 2 ^ (e - min e f).toNat := Nat.mul_le_mul (hm.full (by omega)) hpow
  · exact Nat.mul_lt_mul_of_pos_right (by omega) (Nat.two_pow_pos _)

/-- The difference of two numbers is positive if the first is larger, however near they are. -/
theorem sub_positive_of_finite {x y : Float} {m n : Nat} {e f : Int} {hm : 0 < m} {hn : 0 < n}
    (hx : x.toModel.unpack = .finite .positive m e hm)
    (hy : y.toModel.unpack = .finite .positive n f hn) (less : ¬ x ≤ y) : 0.0 < x - y := by
  obtain ⟨canonicalX, -⟩ := canonical_of_unpack hx
  obtain ⟨canonicalY, -⟩ := canonical_of_unpack hy
  rw [le_iff_of_finite hx hy] at less
  have hless := digits_lt canonicalX canonicalY less
  obtain ⟨d, hd⟩ : ∃ d, n * 2 ^ (f - min e f).toNat + d = m * 2 ^ (e - min e f).toNat :=
    ⟨_, Nat.add_sub_of_le hless.le⟩
  have positive : 0 < d := by omega
  have hsub : UnpackedFloat.sub .binary64 (.finite .positive m e hm) (.finite .positive n f hn) =
      UnpackedFloat.round .binary64 .positive d (min e f) := by
    have hmantissa : Sign.apply .positive ((m * 2 ^ (e - min e f).toNat : Nat) : Int) -
        Sign.apply .positive ((n * 2 ^ (f - min e f).toNat : Nat) : Int) = d := by
      simp only [Sign.apply]
      omega
    have hsign : compare (d : Int) 0 = .gt := compare_gt_iff_gt.mpr (Int.natCast_pos.mpr positive)
    simp only [UnpackedFloat.sub, decreaseExponent, Nat.shiftLeft_eq, hmantissa,
      UnpackedFloat.normalize, hsign, Int.toNat_natCast]
  have hleast : -1074 ≤ min e f := Int.le_min.mpr ⟨canonicalX.least, canonicalY.least⟩
  obtain ⟨nearest, exponent, some, fits, hround⟩ := round_positive .positive positive hleast
  have hdifference : (x - y).toModel =
      Float.Model.pack (UnpackedFloat.sub .binary64 x.toModel.unpack y.toModel.unpack) := rfl
  exact positive_of_rounded some fits (by rw [hdifference, hx, hy, hsub, hround])

theorem sub_zero (u : UnpackedFloat) : UnpackedFloat.sub .binary64 u (.zero .positive) = u := by
  cases u with
  | zero s => cases s <;> rfl
  | _ => rfl

theorem sub_positive {x y : Float} (hx : Unsigned x) (hy : Unsigned y) (less : ¬ x ≤ y) :
    0.0 < x - y := by
  have hdifference : (x - y).toModel =
      Float.Model.pack (UnpackedFloat.sub .binary64 x.toModel.unpack y.toModel.unpack) := rfl
  rcases hx with zeroX | positiveX
  · exact absurd (zero_le zeroX hy) less
  rcases hy with zeroY | positiveY
  · have hread : (x - y).toModel.unpack = x.toModel.unpack := by
      rw [hdifference, zeroY, sub_zero]
      exact congrArg (UnpackedFloat.unpack _) (pack_unpack_of_valid x.toModel.valid)
    rw [positive_iff, hread]
    exact positive_iff.mp positiveX
  rcases positive_iff.mp positiveY with infiniteY | ⟨n, f, hn, finiteY⟩
  · exact absurd (le_infinity (.inr positiveX) infiniteY) less
  rcases positive_iff.mp positiveX with infiniteX | ⟨m, e, hm, finiteX⟩
  · rw [infiniteX, finiteY] at hdifference
    exact positive_iff.mpr (.inl (hdifference ▸ unpack_packedInfinity .positive))
  · exact sub_positive_of_finite finiteX finiteY less

/-- A positive number stays positive when it is multiplied by a number that is at least one. -/
theorem mul_positive {x y : Float} {n : Nat} {f : Int} {hn : 0 < n} (hx : 0.0 < x)
    (hy : y.toModel.unpack = .finite .positive n f hn) (full : 2 ^ 52 ≤ n) (one : -52 ≤ f) :
    0.0 < x * y := by
  have hproduct : (x * y).toModel =
      Float.Model.pack (UnpackedFloat.mul .binary64 x.toModel.unpack y.toModel.unpack) := rfl
  rcases positive_iff.mp hx with infinite | ⟨m, e, hm, hfinite⟩
  · rw [infinite, hy] at hproduct
    exact positive_iff.mpr (.inl (hproduct ▸ unpack_packedInfinity .positive))
  · obtain ⟨⟨-, leastX, -⟩, -⟩ := canonical_of_unpack hfinite
    have hlarge : 2 ^ 52 ≤ m * n := full.trans (Nat.le_mul_of_pos_left n hm)
    have hlog : 52 ≤ (m * n).log2 := (Nat.le_log2 (Nat.mul_pos hm hn).ne').mpr hlarge
    have placed : e + f ≤ exponentFor (m * n) (e + f) := by
      simp only [exponentFor]
      omega
    obtain ⟨nearest, near, fits, hround⟩ :=
      round_written .positive Nat.one_pos (stands_exact (m * n)) placed rfl
    have some : nearest ≠ 0 := by
      refine fits.ne_zero near (by positivity) fun small => ?_
      rw [Nat.one_mul]
      exact (Nat.pow_le_pow_right Nat.zero_lt_two (by omega)).trans hlarge
    have hmul : UnpackedFloat.mul .binary64 (.finite .positive m e hm) (.finite .positive n f hn) =
        roundWithAccuracy .binary64 .positive (m * n) (e + f) .exact := rfl
    exact positive_of_rounded some fits (by rw [hproduct, hfinite, hy, hmul, hround])

end Binary64

end BrowserSteps
