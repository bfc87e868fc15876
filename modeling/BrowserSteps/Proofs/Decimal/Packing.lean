import BrowserSteps.Decimal.Binary
import BrowserSteps.Proofs.Decimal.Rounding

/-!
The numbers of binary64 in their 64 bits. A number that has been rounded is read off its bits as it was
written, unless its exponent is beyond the largest; then infinity is.
-/

namespace BrowserSteps

namespace Binary64

open Float.Model Float.Model.UnpackedFloat

/-- A fraction of 52 digits with the hidden digit in front. -/
theorem toNat_hidden (fraction : BitVec 52) : (1#1 ++ fraction).toNat = 2 ^ 52 + fraction.toNat := by
  have hless := fraction.isLt
  rw [BitVec.toNat_append, ← Nat.shiftLeft_add_eq_or_of_lt hless]
  simp [Nat.shiftLeft_eq]

/-- What is written down as a finite number has the digits and the exponent of one. -/
theorem canonical_of_unpack {bits : BitVec Format.binary64.numBits} {s : Sign} {m : Nat} {e : Int}
    {positive : 0 < m} (h : UnpackedFloat.unpack .binary64 bits = .finite s m e positive) :
    Canonical m e ∧ e ≤ 971 := by
  have hfraction : (unpackMantissa bits).toNat < 2 ^ 52 := (unpackMantissa bits).isLt
  have hfield : (unpackExponent bits).toNat < 2048 := (unpackExponent bits).isLt
  have hbias : (Format.binary64.exponentBias : Int) + Format.binary64.mantissaBitsWithoutImplicit =
      1075 := rfl
  unfold UnpackedFloat.unpack at h
  simp only [hbias] at h
  split at h
  · split at h <;> cases h
  next finite =>
    have hother : (unpackExponent bits).toNat ≠ 2047 := fun same =>
      finite (BitVec.eq_of_toNat_eq same)
    split at h
    next subnormal =>
      have hzero : (unpackExponent bits).toNat = 0 := congrArg BitVec.toNat subnormal
      split at h
      · cases h
      · obtain ⟨-, rfl, rfl⟩ := UnpackedFloat.finite.inj h
        exact ⟨⟨by omega, by omega, fun more => by omega⟩, by omega⟩
    next normal =>
      have hsome : (unpackExponent bits).toNat ≠ 0 := fun same =>
        normal (BitVec.eq_of_toNat_eq same)
      obtain ⟨-, rfl, rfl⟩ := UnpackedFloat.finite.inj h
      have hhidden := toNat_hidden (unpackMantissa bits)
      exact ⟨⟨by omega, by omega, fun _ => by omega⟩, by omega⟩

@[simp] theorem unpack_packedInfinity (s : Sign) :
    UnpackedFloat.unpack .binary64 (packedInfinity .binary64 s) = .infinity s := by
  simp [UnpackedFloat.unpack, packedInfinity]

/-- A number with all its digits: the first one is hidden, and the field for the exponent is neither
the least nor the largest. -/
theorem unpack_normal (s : Sign) {m field : Nat} (full : 2 ^ 52 ≤ m) (bits : m < 2 ^ 53)
    (some : field ≠ 0) (small : field < 2047) :
    UnpackedFloat.unpack .binary64
        (packComponents .binary64 s (BitVec.ofNat 11 field) (BitVec.ofNat 52 m)) =
      .finite s m (field - 1075) (by omega) := by
  have hexponent : (BitVec.ofNat 11 field).toNat = field := Nat.mod_eq_of_lt (by omega)
  have notAll : BitVec.ofNat 11 field ≠ -1#_ := fun same => by
    have hall : field = 2047 := hexponent.symm.trans (congrArg BitVec.toNat same)
    omega
  have notNone : BitVec.ofNat 11 field ≠ 0#_ := fun same =>
    some (hexponent.symm.trans (congrArg BitVec.toNat same))
  have hmantissa : (1#1 ++ BitVec.ofNat 52 m).toNat = m := by
    rw [toNat_hidden, BitVec.toNat_ofNat]
    omega
  simp only [UnpackedFloat.unpack, unpackMantissa_packComponents, unpackExponent_packComponents,
    unpackSign_packComponents, if_neg notAll, if_neg notNone, hexponent, hmantissa,
    Sign.ofBitVec_toBitVec]
  rfl

/-- A number with fewer digits: none of them is hidden. -/
theorem unpack_subnormal (s : Sign) {m : Nat} (positive : 0 < m) (bits : m < 2 ^ 52) :
    UnpackedFloat.unpack .binary64 (packComponents .binary64 s 0#_ (BitVec.ofNat 52 m)) =
      .finite s m (-1074) positive := by
  have hmantissa : (BitVec.ofNat 52 m).toNat = m := Nat.mod_eq_of_lt bits
  have notNone : BitVec.ofNat 52 m ≠ 0#_ := fun same =>
    positive.ne' (hmantissa.symm.trans (congrArg BitVec.toNat same))
  have notAll : (0#11 : BitVec 11) ≠ -1#_ := by decide
  simp only [UnpackedFloat.unpack, unpackMantissa_packComponents, unpackExponent_packComponents,
    unpackSign_packComponents, if_neg notAll, if_true, dif_neg notNone, hmantissa,
    Sign.ofBitVec_toBitVec, BitVec.toNat_zero]
  rfl

/-- A number that has been rounded is read off its bits. -/
theorem unpack_pack_finite (s : Sign) {m : Nat} {e : Int} (positive : 0 < m)
    (canonical : Canonical m e) :
    UnpackedFloat.unpack .binary64 (UnpackedFloat.pack .binary64 (.finite s m e positive)) =
      if e ≤ 971 then .finite s m e positive else .infinity s := by
  obtain ⟨bits, least, full⟩ := canonical
  obtain ⟨field, hfield⟩ : ∃ field : Nat, e + 1075 = field := ⟨(e + 1075).toNat, by omega⟩
  have hbiased : (e + Format.binary64.exponentBias +
      Format.binary64.mantissaBitsWithoutImplicit).toNat = field := by
    simp only [Format.exponentBias]
    omega
  have hdigits : m.log2 + 1 = Format.binary64.mantissaBits ↔ 2 ^ 52 ≤ m := by
    have hlog : m.log2 = 52 ↔ 2 ^ 52 ≤ m ∧ m < 2 ^ 53 := Nat.log2_eq_iff positive.ne'
    simp only [Format.mantissaBits]
    omega
  simp only [UnpackedFloat.pack, hbiased, hdigits]
  split
  next infinite =>
    have large : ¬ e ≤ 971 := by omega
    rw [unpack_packedInfinity, if_neg large]
  next finite =>
    have within : e ≤ 971 := by omega
    rw [if_pos within]
    split
    next normal =>
      obtain rfl : e = field - 1075 := by omega
      exact unpack_normal s normal bits (by omega) (by omega)
    next subnormal =>
      obtain rfl : e = -1074 := by
        by_contra other
        exact subnormal (full (by omega))
      exact unpack_subnormal s positive (by omega)

theorem unpack_pack_written (s : Sign) {number : Nat × Int}
    (canonical : Canonical number.1 number.2) :
    (Float.Model.pack (written s number)).unpack =
      if number.1 = 0 ∨ number.2 ≤ 971 then written s number else .infinity s := by
  change UnpackedFloat.unpack .binary64 (UnpackedFloat.pack .binary64 (written s number)) = _
  simp only [written]
  split
  next zero => simp [UnpackedFloat.pack, zero]
  next some => simp [unpack_pack_finite s (Nat.pos_of_ne_zero some) canonical, some]

/-- A rounded number is finite unless its exponent is beyond the largest. -/
theorem isFinite_pack_written (s : Sign) {number : Nat × Int}
    (canonical : Canonical number.1 number.2) :
    (Float.Model.pack (written s number)).isFinite = true ↔ number.1 = 0 ∨ number.2 ≤ 971 := by
  rw [Float.Model.isFinite, unpack_pack_written s canonical]
  split
  next within =>
    refine iff_of_true ?_ within
    unfold written
    split <;> rfl
  next beyond => exact iff_of_false Bool.false_ne_true beyond

section

variable (bits : BitVec Format.binary64.numBits)

theorem toNat_unpackMantissa : (unpackMantissa bits).toNat = bits.toNat % 2 ^ 52 := by
  simp [unpackMantissa_def, BitVec.extractLsb'_toNat]

theorem toNat_unpackExponent : (unpackExponent bits).toNat = bits.toNat / 2 ^ 52 % 2 ^ 11 := by
  simp [unpackExponent_def, BitVec.extractLsb'_toNat, Nat.shiftRight_eq_div_pow]

theorem isNegative_unpackSign :
    (Sign.ofBitVec (unpackSign bits) == .negative) = (bits.toNat / 2 ^ 63 % 2 == 1) := by
  have hsign : (unpackSign bits).toNat = bits.toNat / 2 ^ 63 % 2 := by
    simp [unpackSign_def, BitVec.extractLsb'_toNat, Nat.shiftRight_eq_div_pow]
  rw [← hsign]
  generalize unpackSign bits = sign
  decide +revert

end

/-- The parts of a number, as decimals take it apart. -/
def parts : UnpackedFloat → Decimal.Binary
  | .infinity s => .infinite (s == .negative)
  | .notANumber => .notANumber
  | .zero s => .finite ⟨s == .negative, 0, -1074⟩
  | .finite s m e _ => .finite ⟨s == .negative, m, e⟩

theorem ofFloat_eq (x : Float) : Decimal.Binary.ofFloat x = parts x.toModel.unpack := by
  obtain ⟨bits, hbits⟩ :
      ∃ bits : BitVec Format.binary64.numBits, x.toModel.toBits.toBitVec = bits := ⟨_, rfl⟩
  have hof : Decimal.Binary.ofFloat x = .ofBits bits.toNat := by rw [← hbits]; rfl
  have hunpack : x.toModel.unpack = UnpackedFloat.unpack .binary64 bits := by rw [← hbits]; rfl
  rw [hof, hunpack]
  have hbias : (Format.binary64.exponentBias : Int) + Format.binary64.mantissaBitsWithoutImplicit =
      1075 := rfl
  have hmantissa := toNat_unpackMantissa bits
  have hexponent := toNat_unpackExponent bits
  have hhidden := toNat_hidden (unpackMantissa bits)
  have hall : unpackExponent bits = -1#_ ↔ (unpackExponent bits).toNat = 2047 :=
    ⟨congrArg BitVec.toNat, fun same => BitVec.eq_of_toNat_eq same⟩
  have hleast : unpackExponent bits = 0#_ ↔ (unpackExponent bits).toNat = 0 :=
    ⟨congrArg BitVec.toNat, fun same => BitVec.eq_of_toNat_eq same⟩
  have hnone : unpackMantissa bits = 0#_ ↔ (unpackMantissa bits).toNat = 0 :=
    ⟨congrArg BitVec.toNat, fun same => BitVec.eq_of_toNat_eq same⟩
  simp only [Decimal.Binary.ofBits, Nat.pow_eq, ← hmantissa, ← hexponent, ← isNegative_unpackSign,
    UnpackedFloat.unpack, hbias, hall, hleast, hnone]
  by_cases infinite : (unpackExponent bits).toNat = 2047
  · by_cases none : (unpackMantissa bits).toNat = 0 <;> simp [infinite, none, parts]
  · by_cases zero : (unpackExponent bits).toNat = 0
    · by_cases none : (unpackMantissa bits).toNat = 0 <;> simp [zero, none, parts]
    · simp [infinite, zero, hhidden, parts]

/-- A whole number of up to 53 digits is written down as it is. -/
theorem unpack_toFloat {n k : Nat} (positive : 0 < n) (digits : n.log2 + k = 52) :
    n.toUInt64.toFloat.toModel.unpack =
      .finite .positive (n * 2 ^ k) (-k) (Nat.mul_pos positive (Nat.two_pow_pos k)) := by
  have small : n < 2 ^ 53 := (Nat.log2_lt positive.ne').mp (by omega)
  have hsame : n.toUInt64.toNat = n := by
    simp only [Nat.toUInt64, UInt64.toNat_ofNat']
    omega
  have hexponent : exponentFor n 0 = -k := by
    simp only [exponentFor]
    omega
  have hrest : exponentFor (n * 2 ^ k) (-k) = -k := by
    have hplace := exponentFor_mul_two_pow positive.ne' k 0
    rwa [Int.zero_sub, hexponent] at hplace
  have hround : UnpackedFloat.ofUInt64 .binary64 n.toUInt64 =
      roundWithAccuracy .binary64 .positive (n * 2 ^ k) (-k) .exact := by
    have hsign : compare (n : Int) 0 = .gt := compare_gt_iff_gt.mpr (Int.natCast_pos.mpr positive)
    have hshift : (0 - exponentFor n 0).toNat = k := by omega
    rw [UnpackedFloat.ofUInt64, UnpackedFloat.ofNat, UnpackedFloat.ofInt, UnpackedFloat.normalize,
      hsame]
    simp only [hsign]
    rw [round_eq, Int.toNat_natCast, hshift, Int.zero_sub]
  obtain ⟨nearest, near, fits, hwritten⟩ := round_written (k := 0) .positive Nat.one_pos
    (stands_exact (n * 2 ^ k)) (Int.le_of_eq hrest.symm) (by rw [hrest, Int.sub_self]; rfl)
  obtain rfl := near.eq_self
  have hbits : n * 2 ^ k < 2 ^ 53 :=
    (Nat.log2_lt (Nat.mul_pos positive (Nat.two_pow_pos k)).ne').mp
      (by rw [log2_mul_two_pow positive.ne']; omega)
  have hcarried : carried (n * 2 ^ k) (-k) = (n * 2 ^ k, -(k : Int)) := if_neg hbits.ne
  rw [hrest] at fits hwritten
  have hread := unpack_pack_written .positive fits.canonical
  rw [hcarried] at hread hwritten
  rw [if_pos (.inr (by omega)), ← hwritten, ← hround] at hread
  rw [written, dif_neg (Nat.mul_pos positive (Nat.two_pow_pos k)).ne'] at hwritten
  exact hread.trans (hround.trans hwritten)

end Binary64

end BrowserSteps
