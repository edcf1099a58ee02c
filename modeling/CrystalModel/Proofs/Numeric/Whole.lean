import CrystalModel.Proofs.Numeric.Faithful

/-! # Whole numbers among the doubles

The floor of a double is the floor of its number. The way to 32 bits is exact inside their range,
and stops at its ends; the way back is exact. -/
namespace CrystalModel.Double

open Float.Model Float.Model.UnpackedFloat

variable {x : Float} {s : Sign} {m : Nat} {e : Int} {h : 0 < m}

theorem isFinite_of_finite (hx : unpacked x = .finite s m e h) : x.isFinite = true := by
  change (unpacked x).isFinite = true
  rw [hx]
  rfl

theorem ofNat_value {n : ℕ} (high : n < 2 ^ 53) :
    (Float.ofNat n).isFinite = true ∧ value (Float.ofNat n) = n := by
  rcases Nat.eq_zero_or_pos n with rfl | hn
  · rw [ofNat_zero, value_zero]
    exact ⟨isFinite_zero, Nat.cast_zero.symm⟩
  · have parts := unpacked_ofNat hn high
    refine ⟨isFinite_of_finite parts, ?_⟩
    rw [value_of_positive parts, zpow_neg, zpow_natCast]
    push_cast
    field_simp

theorem floor_neg_div {m u : ℕ} (hm : 0 < m) (hu : 0 < u) :
    ⌊-((m : ℚ) / u)⌋ = -(((m + u - 1) / u : ℕ) : ℤ) := by
  obtain ⟨_, reach, short⟩ := ceil_div hm hu
  generalize (m + u - 1) / u = n at reach short ⊢
  have positive : (0 : ℚ) < u := by exact_mod_cast hu
  have reach : (m : ℚ) ≤ n * u := by exact_mod_cast reach
  have short : (n : ℚ) * u < m + u := by exact_mod_cast short
  rw [Int.floor_eq_iff, Int.cast_neg, Int.cast_natCast]
  constructor
  · rw [neg_le_neg_iff, div_le_iff₀ positive]
    exact reach
  · have behind : (n : ℚ) - 1 < m / u := by
      rw [lt_div_iff₀ positive]
      linarith
    linarith

theorem floor_value (hx : x.isFinite = true) :
    (Numeric.floor x).isFinite = true ∧ value (Numeric.floor x) = ⌊value x⌋ := by
  rcases finite_cases hx with ⟨s, zero⟩ | ⟨s, m, n | k, h, finite, c⟩
  · have same : Numeric.floor x = x := by
      unfold Numeric.floor
      rw [show x.toModel.unpack = _ from zero]
    rw [same, value_of_zero zero, Int.floor_zero]
    exact ⟨hx, Int.cast_zero.symm⟩
  · rw [floor_whole finite (Int.natCast_nonneg n)]
    refine ⟨hx, ?_⟩
    have whole : value x = (s.apply m * 2 ^ n : ℤ) := by
      rw [value_of_finite finite]
      push_cast
      rfl
    rw [whole, Int.floor_intCast]
  · have unit : 0 < 2 ^ (k + 1) := Nat.two_pow_pos _
    have power : (2 : ℚ) ^ (Int.negSucc k) = 1 / ((2 ^ (k + 1) : ℕ) : ℚ) := by
      rw [zpow_negSucc, one_div]
      push_cast
      rfl
    cases s with
    | positive =>
      rw [floor_positive finite, value_of_positive finite, power, mul_one_div]
      have whole := Rat.floor_intCast_div_natCast m (2 ^ (k + 1))
      rw [Int.cast_natCast] at whole
      rw [whole, ← Int.natCast_ediv, Int.cast_natCast]
      exact ofNat_value (Nat.lt_of_le_of_lt (Nat.div_le_self _ _) c.bits)
    | negative =>
      rw [floor_negative finite, isFinite_neg, value_neg, value_of_negative finite, power,
        mul_one_div, floor_neg_div h unit, Int.cast_neg, Int.cast_natCast]
      obtain ⟨isFinite, same⟩ :=
        ofNat_value (Nat.lt_of_le_of_lt (ceil_div h unit).1 c.bits)
      exact ⟨isFinite, congrArg Neg.neg same⟩

/-! ## Integers of 32 bits -/

theorem apply_ediv {s : Sign} {m u : ℕ} {n : ℤ} (hu : 0 < u) (whole : s.apply m = n * u) :
    s.apply (m / u : ℕ) = n := by
  have unit : (u : ℤ) ≠ 0 := by omega
  have unrounded : (m : ℤ) / u = s.apply n := by
    refine Int.ediv_eq_of_eq_mul_left unit ?_
    cases s with
    | positive => exact whole
    | negative =>
      simp only [Sign.apply] at whole ⊢
      linarith
  rw [Int.natCast_ediv, unrounded]
  cases s with
  | positive => rfl
  | negative => exact Int.neg_neg n

theorem roundToInt_value {n : ℤ} (whole : (s.apply m : ℚ) * 2 ^ e = n) : roundToInt s m e = n := by
  rcases e with k | k
  · have same : roundToInt s m (Int.ofNat k) = s.apply (m * 2 ^ k : ℕ) := by
      simp only [roundToInt, decreaseExponent, shiftToExponent, Nat.shiftLeft_eq]
      rw [show (Int.ofNat k - 0).toNat = k by simp, shiftRight_mantissa,
        show (0 - (Int.ofNat k - (k : ℤ))).toNat = 0 by simp]
      simp [ExtendedMantissa.ofMantissaAndAccuracy]
    have power : (s.apply m : ℚ) * 2 ^ k = n := whole
    rw [same, apply_mul]
    exact_mod_cast power
  · have same : roundToInt s m (Int.negSucc k) = s.apply (m / 2 ^ (k + 1) : ℕ) := by
      simp only [roundToInt, decreaseExponent, shiftToExponent, Nat.shiftLeft_eq]
      rw [show (Int.negSucc k - 0).toNat = 0 by simp, shiftRight_mantissa,
        show (0 - (Int.negSucc k - ((0 : ℕ) : ℤ))).toNat = k + 1 by omega]
      simp [ExtendedMantissa.ofMantissaAndAccuracy]
    rw [same]
    refine apply_ediv (Nat.two_pow_pos _) ?_
    rw [zpow_negSucc, ← div_eq_mul_inv, div_eq_iff (by positivity)] at whole
    exact_mod_cast whole

theorem toInt32_value (hx : x.isFinite = true) {n : ℤ} (whole : value x = n) :
    (Numeric.toInt32 x).toInt = max (-2 ^ 31) (min n (2 ^ 31 - 1)) := by
  have same : (unpacked x).toInt Int32.minValue.toInt Int32.maxValue.toInt = n := by
    rcases finite_cases hx with ⟨s, zero⟩ | ⟨s, m, e, h, finite, c⟩
    · rw [value_of_zero zero] at whole
      rw [zero]
      exact_mod_cast whole
    · rw [value_of_finite finite] at whole
      rw [finite]
      exact roundToInt_value whole
  change (Int32.ofIntClamp _).toInt = _
  change (Int32.ofIntClamp ((unpacked x).toInt Int32.minValue.toInt Int32.maxValue.toInt)).toInt = _
  rw [same, Int32.ofIntClamp]
  have low : Int32.minValue.toInt = -2 ^ 31 := by decide
  have high : Int32.maxValue.toInt = 2 ^ 31 - 1 := by decide
  split
  · split
    · rw [Int32.toInt_ofIntLE]
      omega
    · omega
  · omega

theorem ofInt32_value (c : Int32) :
    (Numeric.ofInt32 c).isFinite = true ∧ value (Numeric.ofInt32 c) = c.toInt := by
  have low := c.le_toInt
  have high := c.toInt_lt
  unfold Numeric.ofInt32
  rcases hc : c.toInt with n | n
  · rw [hc, Int.ofNat_eq_natCast] at high
    obtain ⟨finite, same⟩ := ofNat_value (n := n) (by omega)
    exact ⟨finite, same⟩
  · obtain ⟨finite, same⟩ := ofNat_value (n := n + 1) (by omega)
    refine ⟨(isFinite_neg _).trans finite, (value_neg _).trans ?_⟩
    rw [same, Int.cast_negSucc]

/-! ## Distances to whole numbers -/

theorem Canonical.exponent_of_le {a : ℤ} (c : Canonical m e) (low : (2 : ℚ) ^ a ≤ m * 2 ^ e) :
    a - 52 ≤ e := by
  have below : (2 : ℚ) ^ a < 2 ^ (53 + e) := by
    rw [zpow_add₀ two_ne_zero]
    refine low.trans_lt (mul_lt_mul_of_pos_right ?_ (two_zpow_pos e))
    exact_mod_cast c.bits
  have := (zpow_lt_zpow_iff_right₀ one_lt_two).mp below
  omega

theorem exists_mul_of_le {a : ℤ} (hx : x.isFinite = true) (low : (2 : ℚ) ^ a ≤ |value x|) :
    ∃ n : ℤ, value x = n * 2 ^ (a - 52) := by
  rcases finite_cases hx with ⟨s, zero⟩ | ⟨s, m, e, h, finite, c⟩
  · rw [value_of_zero zero, abs_zero] at low
    exact absurd low (not_le.mpr (two_zpow_pos a))
  · rw [value_of_finite finite, abs_mul, abs_of_pos (two_zpow_pos e), ← Int.cast_abs, abs_apply]
      at low
    obtain ⟨k, rfl⟩ := Int.le.dest (c.exponent_of_le low)
    refine ⟨s.apply m * 2 ^ k, ?_⟩
    rw [value_of_finite finite, zpow_add₀ two_ne_zero, zpow_natCast]
    push_cast
    ring

theorem short_sub_int {a n : ℤ} (hx : x.isFinite = true) (low : (2 : ℚ) ^ a ≤ |value x|)
    (few : a ≤ 52) (near : |value x - n| ≤ 2 ^ (a + 1)) : Short (value x - n) := by
  obtain ⟨m, hm⟩ := exists_mul_of_le hx low
  obtain ⟨k, hk⟩ := Int.le.dest few
  have unit := two_zpow_pos (a - 52)
  have one : (1 : ℚ) = 2 ^ k * 2 ^ (a - 52) := by
    rw [← zpow_natCast, ← zpow_add₀ two_ne_zero, show (k : ℤ) + (a - 52) = 0 by omega, zpow_zero]
  have same : value x - n = (m - n * 2 ^ k : ℤ) * 2 ^ (a - 52) := by
    push_cast
    rw [sub_mul, ← hm, mul_assoc, ← one, Rat.mul_one]
  refine ⟨m - n * 2 ^ k, a - 52, same, ?_⟩
  rw [same, abs_mul, abs_of_pos unit, show a + 1 = 53 + (a - 52) by ring,
    zpow_add₀ two_ne_zero] at near
  have bound := le_of_mul_le_mul_right near unit
  exact_mod_cast bound

/-! ## The nearest whole number -/

/-- The quotient with half a unit added is the nearest whole number. -/
theorem abs_div_sub_le {m u : ℕ} (hu : 0 < u) :
    |(m : ℚ) / u - ((2 * m + u) / (2 * u) : ℕ)| ≤ 1 / 2 := by
  have low := Nat.div_mul_le_self (2 * m + u) (2 * u)
  have high := Nat.lt_div_mul_add (a := 2 * m + u) (show 0 < 2 * u by omega)
  generalize (2 * m + u) / (2 * u) = q at low high ⊢
  have positive : (0 : ℚ) < u := by exact_mod_cast hu
  have low : (q : ℚ) * (2 * u) ≤ 2 * m + u := by exact_mod_cast low
  have high : (2 : ℚ) * m + u ≤ q * (2 * u) + 2 * u := by exact_mod_cast high.le
  have above : (q : ℚ) - 1 / 2 ≤ m / u := (le_div_iff₀ positive).mpr (by linarith)
  have below : (m : ℚ) / u ≤ q + 1 / 2 := (div_le_iff₀ positive).mpr (by linarith)
  rw [abs_le]
  constructor <;> linarith

theorem nearest_value (hx : x.isFinite = true) : ∃ n : ℤ, (Numeric.nearest x).isFinite = true ∧
    value (Numeric.nearest x) = n ∧ |value x - n| ≤ 1 / 2 := by
  rcases finite_cases hx with ⟨s, zero⟩ | ⟨s, m, n | k, h, finite, c⟩
  · have same : Numeric.nearest x = x := by
      unfold Numeric.nearest
      rw [show x.toModel.unpack = _ from zero]
    rw [same, value_of_zero zero]
    exact ⟨0, hx, Int.cast_zero.symm, by norm_num⟩
  · have same : Numeric.nearest x = x := by
      unfold Numeric.nearest
      rw [show x.toModel.unpack = _ from finite]
    have whole : value x = (s.apply m * 2 ^ n : ℤ) := by
      rw [value_of_finite finite]
      push_cast
      rfl
    rw [same, whole]
    exact ⟨_, hx, rfl, by norm_num⟩
  · have unit : 0 < 2 ^ (k + 1) := Nat.two_pow_pos _
    have power : (2 : ℚ) ^ (Int.negSucc k) = 1 / ((2 ^ (k + 1) : ℕ) : ℚ) := by
      rw [zpow_negSucc, one_div]
      push_cast
      rfl
    have half := abs_div_sub_le (m := m) unit
    have few : (2 * m + 2 ^ (k + 1)) / (2 * 2 ^ (k + 1)) < 2 ^ 53 := by
      refine (Nat.div_lt_iff_lt_mul (by omega)).mpr ?_
      have := c.bits
      nlinarith
    obtain ⟨isFinite, same⟩ := ofNat_value few
    cases s with
    | positive =>
      have parts : Numeric.nearest x =
          Float.ofNat ((2 * m + 2 ^ (k + 1)) / (2 * 2 ^ (k + 1))) := by
        unfold Numeric.nearest
        rw [show x.toModel.unpack = _ from finite]
        rfl
      rw [parts, value_of_positive finite, power, mul_one_div]
      exact ⟨_, isFinite, by rw [same, Int.cast_natCast], by rwa [Int.cast_natCast]⟩
    | negative =>
      have parts : Numeric.nearest x =
          -Float.ofNat ((2 * m + 2 ^ (k + 1)) / (2 * 2 ^ (k + 1))) := by
        unfold Numeric.nearest
        rw [show x.toModel.unpack = _ from finite]
        rfl
      rw [parts, isFinite_neg, value_neg, value_of_negative finite, power, mul_one_div]
      refine ⟨-((2 * m + 2 ^ (k + 1)) / (2 * 2 ^ (k + 1)) : ℕ), isFinite, ?_, ?_⟩
      · rw [same, Int.cast_neg, Int.cast_natCast]
      · rw [Int.cast_neg, Int.cast_natCast, ← neg_sub', abs_neg]
        exact half

theorem rest_le (hx : x.isFinite = true) : (x - Numeric.nearest x).isFinite = true ∧
    |value (x - Numeric.nearest x)| ≤ |value x| := by
  obtain ⟨n, isFinite, whole, near⟩ := nearest_value hx
  have small : |value x - value (Numeric.nearest x)| ≤ 1 / 2 := by rwa [whole]
  obtain ⟨finite, rounds⟩ := sub_rounds hx isFinite (small_of_le (small.trans (by norm_num)))
  refine ⟨finite, ?_⟩
  rcases lt_or_ge |value x| (1 / 2) with below | above
  · have none : n = 0 := by
      have close : |(n : ℚ)| < 1 := calc
        |(n : ℚ)| = |value x - (value x - n)| := by ring_nf
        _ ≤ |value x| + |value x - n| := abs_sub _ _
        _ < 1 / 2 + 1 / 2 := add_lt_add_of_lt_of_le below near
        _ = 1 := by norm_num
      have : |n| < 1 := by exact_mod_cast close
      exact Int.abs_lt_one_iff.mp this
    have unrounded : value x - value (Numeric.nearest x) = value x := by
      rw [whole, none, Int.cast_zero]
      ring
    rw [unrounded] at rounds
    rw [rounds.eq_of_short (.value x)]
  · have half : Short (1 / 2) := ⟨1, -1, by norm_num, by decide⟩
    obtain ⟨low, high⟩ := abs_le.mp small
    refine (abs_le.mpr ⟨?_, ?_⟩).trans above
    · exact rounds.ge_of_ge half.neg low
    · exact rounds.le_of_le half high

end CrystalModel.Double
