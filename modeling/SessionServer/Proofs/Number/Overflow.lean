import Mathlib.Algebra.Order.Field.Power
import Mathlib.Data.Rat.Cast.Order
import Mathlib.Tactic.FieldSimp
import Mathlib.Tactic.Linarith
import Mathlib.Tactic.NormNum
import Mathlib.Tactic.Positivity
import Mathlib.Tactic.Ring
import SessionServer.Json.Reader

/-!
Contract: which numerals have no binary64 value.

Owns:
- `Binary64.overflowBound`, from which on a magnitude is rounded beyond the finite values;
- `Numeral.magnitude`, the exact number that a numeral writes down, without its sign;
- the proof that exactly the numerals from the bound on denote nothing.

Does not own: which of the finite values a numeral is rounded to.
-/

namespace SessionServer

namespace Binary64

/-- Halfway between the greatest finite value and the power of two behind it. This is a tie, which
goes to the even significand, so it is rounded away from the finite values. -/
def overflowBound : ℚ := 2 ^ 1024 - 2 ^ 970

theorem overflowBound_eq : overflowBound = (2 ^ 54 - 1) * 2 ^ 970 := by
  rw [overflowBound, sub_mul, one_mul, ← pow_add]

/-- Integers of 64 bits are far below. -/
theorem word_lt_overflowBound : 2 ^ 64 < overflowBound := by
  have half : (2 : ℚ) ^ 64 ≤ 2 ^ 970 := pow_le_pow_right₀ one_le_two (by decide)
  rw [overflowBound_eq]
  generalize (2 : ℚ) ^ 970 = half at *
  linarith

/-! ## Scaling -/

/-- A ratio that has been scaled. -/
theorem scaled_spec (numerator : Nat) {denominator : Nat} (positive : 0 < denominator)
    (exponent : Int) :
    let ratio := scaled numerator denominator exponent
    0 < ratio.2 ∧ (ratio.1 : ℚ) / ratio.2 = numerator / denominator / 2 ^ exponent := by
  have two : (2 : ℚ) ≠ 0 := two_ne_zero
  unfold scaled
  split
  · next negative =>
      obtain ⟨size, rfl⟩ : ∃ size : Nat, exponent = -size := ⟨(-exponent).toNat, by omega⟩
      refine ⟨positive, ?_⟩
      rw [neg_neg, Int.toNat_natCast, zpow_neg, zpow_natCast, div_inv_eq_mul]
      push_cast [Nat.pow_eq]
      rw [div_mul_eq_mul_div]
  · next natural =>
      obtain ⟨size, rfl⟩ : ∃ size : Nat, exponent = size := ⟨exponent.toNat, by omega⟩
      refine ⟨Nat.mul_pos positive (Nat.pow_pos (by decide)), ?_⟩
      rw [Int.toNat_natCast, zpow_natCast, div_div]
      push_cast [Nat.pow_eq]
      rfl

/-! ## The exponent of a ratio -/

theorem le_div_iff_le_ratio (bound numerator : Nat) {denominator : Nat}
    (positive : 0 < denominator) :
    bound ≤ numerator / denominator ↔ (bound : ℚ) ≤ numerator / denominator := by
  rw [Nat.le_div_iff_mul_le positive, le_div_iff₀ (Nat.cast_pos.mpr positive)]
  norm_cast

/-- The first guess from the numbers of bits is right or too small by one. -/
theorem coarse_spec {numerator denominator : Nat} (occupied : 0 < numerator)
    (positive : 0 < denominator) :
    let coarse : Int := (numerator.log2 : Int) - (denominator.log2 : Int) - 53
    (2 : ℚ) ^ 52 < numerator / denominator / 2 ^ coarse ∧
      (numerator : ℚ) / denominator / 2 ^ coarse < 2 ^ 54 := by
  intro coarse
  have two : (2 : ℚ) ≠ 0 := two_ne_zero
  have unit : (0 : ℚ) < 2 ^ coarse := zpow_pos two_pos coarse
  have below : (0 : ℚ) < denominator := Nat.cast_pos.mpr positive
  -- Both numbers lie between the powers of two that their numbers of bits tell.
  have least : (2 : ℚ) ^ numerator.log2 ≤ numerator :=
    mod_cast Nat.log2_self_le (Nat.ne_of_gt occupied)
  have most : (numerator : ℚ) < 2 ^ (numerator.log2 + 1) := mod_cast Nat.lt_log2_self
  have leastBelow : (2 : ℚ) ^ denominator.log2 ≤ denominator :=
    mod_cast Nat.log2_self_le (Nat.ne_of_gt positive)
  have mostBelow : (denominator : ℚ) < 2 ^ (denominator.log2 + 1) := mod_cast Nat.lt_log2_self
  have split : (2 : ℚ) ^ numerator.log2 = 2 ^ 53 * 2 ^ coarse * 2 ^ denominator.log2 := by
    rw [← zpow_natCast, ← zpow_natCast, ← zpow_natCast, ← zpow_add₀ two, ← zpow_add₀ two]
    congr 1
    simp only [coarse]
    omega
  rw [lt_div_iff₀ unit, lt_div_iff₀ below, div_lt_iff₀ unit, div_lt_iff₀ below]
  rw [pow_succ] at most mostBelow
  have scale : (0 : ℚ) < 2 ^ 52 * 2 ^ coarse := by positivity
  constructor
  · calc (2 : ℚ) ^ 52 * 2 ^ coarse * denominator
        < 2 ^ 52 * 2 ^ coarse * (2 ^ denominator.log2 * 2) := mul_lt_mul_of_pos_left mostBelow scale
      _ = 2 ^ numerator.log2 := by rw [split]; ring
      _ ≤ numerator := least
  · calc (numerator : ℚ) < 2 ^ numerator.log2 * 2 := most
      _ = 2 ^ 54 * 2 ^ coarse * 2 ^ denominator.log2 := by rw [split]; ring
      _ ≤ 2 ^ 54 * 2 ^ coarse * denominator := mul_le_mul_of_nonneg_left leastBelow (by positivity)

/-- At its exponent a ratio has a significand of 53 bits, unless the exponent had to be raised to
the least one. -/
theorem exponentFor_spec {numerator denominator : Nat} (occupied : 0 < numerator)
    (positive : 0 < denominator) :
    ∃ fitted : Int, exponentFor numerator denominator = max minExponent fitted ∧
      (2 : ℚ) ^ 52 ≤ numerator / denominator / 2 ^ fitted ∧
      (numerator : ℚ) / denominator / 2 ^ fitted < 2 ^ 53 := by
  obtain ⟨least, most⟩ := coarse_spec occupied positive
  unfold exponentFor
  extract_lets coarse
  obtain ⟨bottom, ratio⟩ := scaled_spec numerator positive coarse
  generalize scaled numerator denominator coarse = scaledRatio at *
  obtain ⟨top, base⟩ := scaledRatio
  have large := le_div_iff_le_ratio significandBound top bottom
  dsimp only at large ratio ⊢
  rw [ratio, show (significandBound : ℚ) = 2 ^ 53 by norm_num [significandBound]] at large
  refine ⟨_, rfl, ?_⟩
  split
  · next reached =>
      have bound := large.mp reached
      rw [zpow_add₀ two_ne_zero, zpow_one, ← div_div]
      constructor <;> linarith
  · next missed =>
      have bound := not_le.mp (mt large.mpr missed)
      exact ⟨le_of_lt least, bound⟩

/-! ## Rounding -/

/-- A ratio below an even bound is rounded to the bound from half a unit below it on. -/
theorem roundHalfEven_eq_iff {numerator denominator bound : Nat} (positive : 0 < denominator)
    (even : bound % 2 = 0) (below : numerator < bound * denominator) :
    roundHalfEven numerator denominator = bound ↔
      (2 * bound - 1) * denominator ≤ 2 * numerator := by
  have less : numerator / denominator < bound := (Nat.div_lt_iff_lt_mul positive).mpr below
  have parts := Nat.div_add_mod numerator denominator
  have small := Nat.mod_lt numerator positive
  unfold roundHalfEven
  dsimp only
  generalize numerator % denominator = remainder at *
  generalize numerator / denominator = quotient at *
  obtain ⟨missing, rfl⟩ : ∃ missing, bound = quotient + 1 + missing :=
    Nat.exists_eq_add_of_le less
  cases missing with
  | zero =>
      have doubled : (2 * (quotient + 1 + 0) - 1) * denominator =
          2 * (denominator * quotient) + denominator := by
        rw [show 2 * (quotient + 1 + 0) - 1 = 2 * quotient + 1 by omega]
        ring
      rw [doubled, ← parts]
      split
      · omega
      · split <;> omega
  | succ missing =>
      have doubled : (2 * (quotient + 1 + (missing + 1)) - 1) * denominator =
          2 * (denominator * quotient) + 2 * (missing * denominator) + 3 * denominator := by
        rw [show 2 * (quotient + 1 + (missing + 1)) - 1 = 2 * quotient + 2 * missing + 3 by omega]
        ring
      rw [doubled, ← parts]
      split
      · omega
      · split <;> omega

/-- There is no value if the exponent is too large, or is the greatest and grows by rounding. -/
theorem ofRatio_eq_none_iff_exponent (negative : Bool) {numerator denominator top base : Nat}
    {exponent : Int} (occupied : 0 < numerator)
    (fits : exponentFor numerator denominator = exponent)
    (ratio : scaled numerator denominator exponent = (top, base)) :
    ofRatio negative numerator denominator = none ↔
      maxExponent < exponent ∨
        exponent = maxExponent ∧ roundHalfEven top base = significandBound := by
  rw [ofRatio, if_neg (Nat.ne_of_gt occupied), fits]
  dsimp only
  rw [ratio]
  dsimp only
  by_cases full : roundHalfEven top base = significandBound
  · rw [if_pos full]
    split
    · next large => exact iff_of_true rfl (by dsimp only at large; omega)
    · next small =>
        refine iff_of_false ?_ (by dsimp only at small; omega)
        split <;> exact Option.some_ne_none _
  · rw [if_neg full]
    split
    · next large => exact iff_of_true rfl (.inl large)
    · next small =>
        refine iff_of_false ?_ (by dsimp only at small; omega)
        split <;> exact Option.some_ne_none _

/-- A ratio has no value exactly if it has reached the bound. -/
theorem ofRatio_eq_none_iff (negative : Bool) {numerator denominator : Nat}
    (occupied : 0 < numerator) (positive : 0 < denominator) :
    ofRatio negative numerator denominator = none ↔
      overflowBound ≤ (numerator : ℚ) / denominator := by
  obtain ⟨fitted, exponent, least, most⟩ := exponentFor_spec occupied positive
  obtain ⟨bottom, ratio⟩ := scaled_spec numerator positive (max minExponent fitted)
  generalize split : scaled numerator denominator (max minExponent fitted) = scaledRatio at *
  obtain ⟨top, base⟩ := scaledRatio
  rw [ofRatio_eq_none_iff_exponent negative occupied exponent split, overflowBound_eq]
  have unit : (0 : ℚ) < 2 ^ fitted := zpow_pos two_pos fitted
  have greatest : (0 : ℚ) < 2 ^ 970 := pow_pos two_pos 970
  rw [le_div_iff₀ unit] at least
  rw [div_lt_iff₀ unit] at most
  rcases lt_trichotomy (max minExponent fitted) maxExponent with small | equal | large
  case inl =>
    -- The ratio is below a power of two that is a value itself.
    have step : fitted ≤ 970 := by
      simp only [maxExponent] at small
      omega
    have power : (2 : ℚ) ^ fitted ≤ 2 ^ 970 := by
      rw [← zpow_natCast]
      exact zpow_le_zpow_right₀ one_le_two step
    refine iff_of_false (by omega) (not_le.mpr ?_)
    generalize (2 : ℚ) ^ 970 = half at *
    linarith
  case inr.inl =>
    -- Only rounding to the next power of two can lead beyond the finite values.
    have same : fitted = ((971 : Nat) : Int) := by
      simp only [maxExponent, minExponent] at equal
      omega
    have raised : max minExponent fitted = fitted := by
      rw [equal, same]
      rfl
    have double : (2 : ℚ) ^ fitted = 2 * 2 ^ 970 := by
      rw [same, zpow_natCast, pow_succ, mul_comm]
    have occupiedBase : (0 : ℚ) < base := Nat.cast_pos.mpr bottom
    rw [raised, double, eq_div_iff (by positivity)] at ratio
    rw [double, ← ratio] at most
    rw [← ratio]
    dsimp only at most ⊢
    generalize (2 : ℚ) ^ 970 = half at *
    have below : top < significandBound * base := by
      have quotient := (mul_lt_mul_iff_of_pos_right (by positivity)).mp most
      rw [div_lt_iff₀ occupiedBase] at quotient
      exact_mod_cast quotient
    rw [roundHalfEven_eq_iff bottom rfl below, or_iff_right (by omega), and_iff_right equal,
      ← mul_assoc, mul_le_mul_iff_of_pos_right greatest, div_mul_eq_mul_div,
      le_div_iff₀ occupiedBase, mul_comm (top : ℚ)]
    norm_num [significandBound]
    norm_cast
  case inr.inr =>
    have step : ((972 : Nat) : Int) ≤ fitted := by
      simp only [maxExponent, minExponent] at large
      omega
    have power : (2 : ℚ) ^ 2 * 2 ^ 970 ≤ 2 ^ fitted := by
      rw [← pow_add, ← zpow_natCast]
      exact zpow_le_zpow_right₀ one_le_two step
    refine iff_of_true (.inl large) ?_
    generalize (2 : ℚ) ^ 970 = half at *
    linarith

/-! ## Decimal numerals -/

/-- A number with so many digits lies between two powers of ten. -/
theorem toDigits_spec {size : Nat} (occupied : 0 < size) :
    ∃ more, (Nat.toDigits 10 size).length = more + 1 ∧ 10 ^ more ≤ size ∧
      size < 10 ^ (more + 1) := by
  obtain ⟨more, length⟩ := Nat.exists_eq_succ_of_ne_zero
    (Nat.ne_of_gt (Nat.length_toDigits_pos (b := 10) (n := size)))
  refine ⟨more, length, ?_, ?_⟩
  · by_contra short
    cases more with
    | zero => omega
    | succ fewer =>
        have fits := (Nat.length_toDigits_le_iff (by decide) (Nat.succ_pos fewer)).mpr
          (Nat.not_le.mp short)
        omega
  · exact (Nat.length_toDigits_le_iff (by decide) (Nat.succ_pos more)).mp (Nat.le_of_eq length)

theorem overflowBound_le_pow : overflowBound ≤ 10 ^ 400 := by
  calc overflowBound ≤ 2 ^ 1024 := sub_le_self _ (by positivity)
    _ ≤ 2 ^ (3 * 400) := pow_le_pow_right₀ one_le_two (by decide)
    _ = (2 ^ 3) ^ 400 := pow_mul 2 3 400
    _ ≤ 10 ^ 400 := pow_le_pow_left₀ (by norm_num) (by norm_num) 400

theorem ofDecimal_eq_none_iff (negative : Bool) (digits : Nat) (exponent : Int) :
    ofDecimal negative digits exponent = none ↔ overflowBound ≤ digits * 10 ^ exponent := by
  have word := word_lt_overflowBound
  have ten : (10 : ℚ) ≠ 0 := by norm_num
  unfold ofDecimal
  by_cases none : digits = 0
  · rw [if_pos none, none, Nat.cast_zero, zero_mul]
    exact iff_of_false (Option.some_ne_none _) (by linarith)
  obtain ⟨more, length, long, short⟩ := toDigits_spec (Nat.pos_of_ne_zero none)
  have unit : (0 : ℚ) < 10 ^ exponent := zpow_pos (by norm_num) exponent
  rw [if_neg none, length]
  dsimp only
  split
  · next large =>
      refine iff_of_true rfl ?_
      calc overflowBound ≤ 10 ^ 400 := overflowBound_le_pow
        _ ≤ 10 ^ ((more : Int) + exponent) := by
            rw [← zpow_natCast]
            exact zpow_le_zpow_right₀ (by norm_num) (by push_cast at large ⊢; omega)
        _ = ((10 ^ more : Nat) : ℚ) * 10 ^ exponent := by
            rw [zpow_add₀ ten, zpow_natCast]
            push_cast
            rfl
        _ ≤ digits * 10 ^ exponent := mul_le_mul_of_nonneg_right (mod_cast long) unit.le
  · split
    · next small =>
        refine iff_of_false (Option.some_ne_none _) (not_le.mpr ?_)
        calc (digits : ℚ) * 10 ^ exponent < ((10 ^ (more + 1) : Nat) : ℚ) * 10 ^ exponent :=
              mul_lt_mul_of_pos_right (mod_cast short) unit
          _ = 10 ^ (((more + 1 : Nat) : Int) + exponent) := by
              rw [zpow_add₀ ten, zpow_natCast]
              push_cast
              rfl
          _ ≤ 10 ^ (0 : Int) := zpow_le_zpow_right₀ (by norm_num) (by omega)
          _ ≤ overflowBound := by rw [zpow_zero]; linarith
    · split
      · next fraction =>
          obtain ⟨size, rfl⟩ : ∃ size : Nat, exponent = -size := ⟨(-exponent).toNat, by omega⟩
          rw [Nat.pow_eq, ofRatio_eq_none_iff negative (Nat.pos_of_ne_zero none)
            (Nat.pow_pos (by decide)), neg_neg, Int.toNat_natCast, zpow_neg, zpow_natCast,
            ← div_eq_mul_inv]
          norm_cast
      · next whole =>
          obtain ⟨size, rfl⟩ : ∃ size : Nat, exponent = size := ⟨exponent.toNat, by omega⟩
          rw [Nat.pow_eq, ofRatio_eq_none_iff negative
            (Nat.mul_pos (Nat.pos_of_ne_zero none) (Nat.pow_pos (by decide))) Nat.one_pos,
            Int.toNat_natCast, zpow_natCast, Nat.cast_one, div_one]
          norm_cast

end Binary64

namespace Json.Numeral

/-- The size of the number that a numeral writes down. -/
def magnitude (numeral : Numeral) : ℚ :=
  Nat.ofDigitChars 10 (numeral.whole ++ numeral.fraction.getD []) 0 *
    10 ^ (numeral.exponent.getD 0 - (numeral.fraction.getD []).length)

/-- The numeral is too large for a binary64 value. -/
def Overflows (numeral : Numeral) : Prop := Binary64.overflowBound ≤ numeral.magnitude

/-- A numeral denotes a number exactly if it does not overflow. -/
theorem value?_eq_none_iff (numeral : Numeral) : numeral.value? = none ↔ numeral.Overflows := by
  obtain ⟨negative, whole, fraction, exponent⟩ := numeral
  have rounded := Binary64.ofDecimal_eq_none_iff negative
    (Nat.ofDigitChars 10 (whole ++ fraction.getD []) 0)
    (exponent.getD 0 - (fraction.getD []).length)
  unfold value?
  extract_lets digits size signed exact shift
  split
  · next integral =>
      refine iff_of_false (Option.some_ne_none _) (not_le.mpr ?_)
      simp only [exact, Bool.and_eq_true, Option.isNone_iff_eq_none, decide_eq_true_eq] at integral
      obtain ⟨⟨⟨rfl, rfl⟩, -⟩, least, bound⟩ := integral
      have small : size ≤ 2 ^ 64 := by
        cases negative with
        | false =>
            simp only [signed, unsignedBound, Bool.false_eq_true, if_false] at bound
            omega
        | true =>
            simp only [signed, leastInteger, if_true] at least
            omega
      have magnitude : magnitude ⟨negative, whole, none, none⟩ = size := by
        simp [Numeral.magnitude, size, digits]
      rw [magnitude]
      exact lt_of_le_of_lt (mod_cast small) Binary64.word_lt_overflowBound
  · rw [Option.map_eq_none_iff]
    exact rounded

end Json.Numeral

end SessionServer
