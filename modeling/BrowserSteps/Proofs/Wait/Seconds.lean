import BrowserSteps.Proofs.Decimal.Fraction
import BrowserSteps.Wait.TimeScale

/-!
Spans of time in binary64 seconds. While a span has not reached its limit, what is left of it is
positive, and so is every pause; and a span reaches its limit no later than it does exactly.
-/

namespace BrowserSteps

namespace TimeScale

open Float.Model Float.Model.UnpackedFloat Binary64

/-- A million, as it is written down. -/
theorem unpack_million : (1000000 : Float).toModel.unpack =
    .finite .positive (1000000 * 2 ^ 33) (-33) (by decide) := rfl

/-- Microseconds are a quotient by a million, unless they are none or far too many. -/
theorem secondsOfMicros_cases (n : Nat) : n = 0 ∧ secondsOfMicros n = 0.0 ∨
    (secondsOfMicros n).toModel.unpack = .infinity .positive ∨ IsFraction (secondsOfMicros n) n 6 := by
  have hsign : decide ((n : Int) < 0) = false := decide_eq_false (by omega)
  rw [secondsOfMicros, hsign, Int.natAbs_natCast]
  exact floatOfDecimal_cases exact_million n

theorem unsigned_secondsOfMicros (n : Nat) : Unsigned (secondsOfMicros n) := by
  rcases secondsOfMicros_cases n with
    ⟨-, zero⟩ | infinite | ⟨m, e, d, f, hm, hd, -, -, hquotient⟩
  · exact .inl (by rw [zero, unpack_zero])
  · exact .inr (positive_iff.mpr (.inl infinite))
  · exact unsigned_quotient hm hd hquotient

/-- The limit of a wait of whole seconds. -/
theorem limit_of_whole {n : Int} {span : Float} (h : binary.limit? (.whole n) = some span) :
    Unsigned span ∧ span.isFinite = true := by
  simp only [binary, Number.toFloat?, floatOfInt?, Option.map_eq_some_iff,
    Option.ite_none_right_eq_some, Option.some.injEq] at h
  obtain ⟨x, ⟨finite, rfl⟩, rfl⟩ := h
  split
  next positive => exact ⟨.inr positive, finite⟩
  next => exact ⟨.inl unpack_zero, rfl⟩

/-- Every pause of some seconds takes time. -/
theorem pauseOfSeconds_pos {x : Float} (h : 0.0 < x) : 0 < pauseOfSeconds x := by
  have hmicros : 0.0 < x * 1000000 := mul_positive h unpack_million (by decide) (by decide)
  unfold pauseOfSeconds
  rw [ofFloat_eq]
  rcases positive_iff.mp hmicros with infinite | ⟨m, e, positive, finite⟩
  · rw [infinite]
    exact Nat.two_pow_pos 64
  · rw [finite]
    simp only [parts]
    rw [if_neg (by simp [positive.ne'])]
    exact Nat.lt_of_lt_of_le Nat.one_pos (Nat.le_max_left _ _)

/-- While a wait has not reached its limit, it pauses for some time. -/
theorem pause_pos {span elapsed interval : Float} (hspan : Unsigned span) (helapsed : Unsigned elapsed)
    (hinterval : 0.0 < interval) (short : binary.reaches elapsed span = false) :
    0 < binary.pause (binary.shorter interval (binary.sub span elapsed)) := by
  have hrest : 0.0 < span - elapsed := sub_positive hspan helapsed (of_decide_eq_false short)
  refine pauseOfSeconds_pos ?_
  simp only [binary]
  split
  · exact hrest
  · exact hinterval

theorem value_eq_ratio (d : Decimal.Dyadic) :
    0 < d.ratio.2 ∧ value d.mantissa d.exponent = d.ratio.1 / d.ratio.2 := by
  obtain ⟨negative, m, e⟩ := d
  cases e with
  | ofNat e => simp [Decimal.Dyadic.ratio, value]
  | negSucc e =>
      refine ⟨Nat.two_pow_pos _, ?_⟩
      simp [Decimal.Dyadic.ratio, value, zpow_negSucc, div_eq_mul_inv]

/-- A wait that has taken as long as its limit bounds has reached it. -/
theorem reaches_of_bound {span : Float} {n : Nat} (hspan : Unsigned span)
    (finite : span.isFinite = true) (long : binary.bound span ≤ n + 1) :
    binary.reaches (secondsOfMicros n) span = true := by
  refine decide_eq_true ?_
  have helapsed := unsigned_secondsOfMicros n
  rcases hspan with zero | positive
  · exact zero_le zero helapsed
  rcases positive_iff.mp positive with infinite | ⟨l, g, hl, hfinite⟩
  · change span.toModel.unpack.isFinite = true at finite
    rw [infinite] at finite
    cases finite
  · simp only [binary, ofFloat_eq, hfinite, parts] at long
    obtain ⟨hden, hvalue⟩ := value_eq_ratio ⟨Sign.positive == .negative, l, g⟩
    generalize Decimal.Dyadic.ratio ⟨Sign.positive == .negative, l, g⟩ = ratio at long hden hvalue
    obtain ⟨num, den⟩ := ratio
    have hbelow : num * 1000000 / den < n := by
      dsimp only at long
      omega
    change value l g = num / den at hvalue
    have hmicros : num * 1000000 < n * den := (Nat.div_lt_iff_lt_mul hden).mp hbelow
    have hexact : value l g * 1000000 ≤ n := by
      rw [hvalue, div_mul_eq_mul_div, div_le_iff₀ (by exact_mod_cast hden)]
      exact_mod_cast hmicros.le
    rcases secondsOfMicros_cases n with
      ⟨rfl, -⟩ | beyond | ⟨m, e, d, f, hm, hd, hn, hmillion, hquotient⟩
    · omega
    · exact le_infinity (.inr positive) beyond
    · exact le_quotient hm hd hfinite hquotient (by rwa [hn, hmillion])

end TimeScale

end BrowserSteps
