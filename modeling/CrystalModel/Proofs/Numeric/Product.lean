import CrystalModel.Proofs.Numeric.Faithful

/-! # Products of doubles

A product is rounded to its last place, or to a multiple of the least double where it is too small
for that; the factors zero and one lose nothing. Errors of small sums of products add up. -/
namespace CrystalModel.Double

open Float.Model Float.Model.UnpackedFloat

variable {x y : Float} {s : Sign} {m m' : Nat} {e e' : Int} {h : 0 < m}

theorem roundWithAccuracy_subnormal {M k : ℕ} (s : Sign) (hM : 0 < M) (below : M < 2 ^ 52 * 2 ^ k) :
    ∃ q, M / 2 ^ k ≤ q ∧ q ≤ M / 2 ^ k + 1 ∧
      roundWithAccuracy Format.binary64 s M (-1074 - k) .exact =
        if h : q = 0 then .zero s else .finite s q (-1074) (Nat.pos_of_ne_zero h) := by
  let em := ExtendedMantissa.ofMantissaAndAccuracy M .exact >>> k
  have target : Format.binary64.targetExponent (totalExponent M (-1074 - k)) = -1074 := by
    have bits : M.log2 < 52 + k := by
      refine (Nat.log2_lt (Nat.ne_of_gt hM)).mpr ?_
      rwa [Nat.pow_add]
    rw [targetExponent_eq, totalExponent]
    omega
  have first : shiftToTargetExponent Format.binary64 M (-1074 - k) .exact =
      (em, -1074 - ((0 : ℕ) : ℤ)) := by
    rw [shiftToTargetExponent, target, shiftToExponent,
      show (-1074 - (-1074 - (k : ℤ))).toNat = k by omega]
    simp [em]
  have part : M / 2 ^ k < 2 ^ 52 := (Nat.div_lt_iff_lt_mul (Nat.two_pow_pos k)).mpr below
  obtain ⟨least, most⟩ := roundedMantissa_bounds em
  rw [shiftRight_mantissa] at least most
  change M / 2 ^ k ≤ _ at least
  change _ ≤ M / 2 ^ k + 1 at most
  refine ⟨em.roundedMantissa, least, most, ?_⟩
  split
  · next none =>
    simp only [roundWithAccuracy, first, none]
    rfl
  · next nonzero =>
    have c : Canonical em.roundedMantissa (-1074) :=
      ⟨by omega, by decide, by decide, Or.inr rfl⟩
    exact roundWithAccuracy_of_shift first (by simp) c.normal (Nat.pos_of_ne_zero nonzero)

/-- The result is a number, and differs from the exact one by at most `error`. -/
def Near (u : UnpackedFloat) (z error : ℚ) : Prop :=
  (Float.Model.pack u).unpack = u ∧ u.isFinite = true ∧ |number u - z| ≤ error

theorem abs_apply_sub (s : Sign) (m M : ℕ) (a b : ℚ) :
    |(s.apply m : ℚ) * a - s.apply M * b| = |(m : ℚ) * a - M * b| := by
  cases s with
  | positive => simp [Sign.apply]
  | negative =>
    rw [← abs_neg]
    congr 1
    simp only [Sign.apply]
    push_cast
    ring

theorem abs_sub_div_le {M q : ℕ} (k : ℕ) (lower : M / 2 ^ k ≤ q) (upper : q ≤ M / 2 ^ k + 1) :
    |(q : ℚ) - M / 2 ^ k| ≤ 1 := by
  have unit := Nat.two_pow_pos k
  have power : (0 : ℚ) < 2 ^ k := by positivity
  have low : M / 2 ^ k * 2 ^ k ≤ M := Nat.div_mul_le_self M _
  have high : M < M / 2 ^ k * 2 ^ k + 2 ^ k := Nat.lt_div_mul_add unit
  have least : M ≤ (q + 1) * 2 ^ k := by
    rw [Nat.add_mul, Nat.one_mul]
    have := Nat.mul_le_mul_right (2 ^ k) lower
    omega
  have most : q * 2 ^ k ≤ M + 2 ^ k := by
    have := Nat.mul_le_mul_right (2 ^ k) upper
    rw [Nat.add_mul, Nat.one_mul] at this
    omega
  have least : (M : ℚ) ≤ (q + 1) * 2 ^ k := by exact_mod_cast least
  have most : (q : ℚ) * 2 ^ k ≤ M + 2 ^ k := by exact_mod_cast most
  have above : (M : ℚ) / 2 ^ k ≤ q + 1 := (div_le_iff₀ power).mpr least
  have below : (q : ℚ) - 1 ≤ M / 2 ^ k := (le_div_iff₀ power).mpr (by linarith)
  rw [abs_le]
  constructor <;> linarith

theorem roundWithAccuracy_near_of_subnormal {M k : ℕ} {b : ℚ} (s : Sign) (hM : 0 < M)
    (below : M < 2 ^ 52 * 2 ^ k) (least : 2 ^ (-1000 : ℤ) ≤ b) :
    Near (roundWithAccuracy Format.binary64 s M (-1074 - k) .exact)
      (s.apply M * 2 ^ (-1074 - (k : ℤ))) (b / 2 ^ 52) := by
  obtain ⟨q, lower, upper, rounded⟩ := roundWithAccuracy_subnormal s hM below
  have scaled : (M : ℚ) * 2 ^ (-1074 - (k : ℤ)) = M / 2 ^ k * 2 ^ (-1074 : ℤ) := by
    rw [zpow_sub₀ two_ne_zero, zpow_natCast]
    ring
  have apart := abs_sub_div_le k lower upper
  have unit : (2 : ℚ) ^ (-1074 : ℤ) ≤ b / 2 ^ 52 := by
    rw [le_div_iff₀ (by positivity), ← zpow_natCast, ← zpow_add₀ two_ne_zero]
    exact (zpow_le_zpow_right₀ one_le_two (by decide)).trans least
  have near : |(q : ℚ) * 2 ^ (-1074 : ℤ) - M * 2 ^ (-1074 - (k : ℤ))| ≤ b / 2 ^ 52 := calc
    |(q : ℚ) * 2 ^ (-1074 : ℤ) - M * 2 ^ (-1074 - (k : ℤ))|
        = |(q : ℚ) - M / 2 ^ k| * 2 ^ (-1074 : ℤ) := by
      rw [scaled, ← sub_mul, abs_mul, abs_of_pos (two_zpow_pos _)]
    _ ≤ 1 * 2 ^ (-1074 : ℤ) := by gcongr
    _ ≤ b / 2 ^ 52 := by rwa [one_mul]
  rw [rounded]
  split
  · next none =>
    refine ⟨unpack_pack_zero s, rfl, ?_⟩
    have zero : (s.apply (q : ℕ) : ℚ) * 2 ^ (-1074 : ℤ) = number (.zero s) := by
      rw [none]
      cases s <;> simp [number, Sign.apply]
    rwa [← abs_apply_sub s, zero] at near
  · next nonzero =>
    have c : Canonical q (-1074) := by
      have part : M / 2 ^ k < 2 ^ 52 := (Nat.div_lt_iff_lt_mul (Nat.two_pow_pos k)).mpr below
      exact ⟨by omega, by decide, by decide, Or.inr rfl⟩
    refine ⟨unpack_pack c, rfl, ?_⟩
    rwa [number, abs_apply_sub]

theorem roundWithAccuracy_near {M : ℕ} {E : ℤ} {b : ℚ} (s : Sign) (hM : 0 < M)
    (bits : 52 ≤ M.log2 ∨ E ≤ -1074) (least : 2 ^ (-1000 : ℤ) ≤ b) (most : b ≤ 2 ^ 1000)
    (bound : (M : ℚ) * 2 ^ E ≤ b) :
    Near (roundWithAccuracy Format.binary64 s M E .exact) (s.apply M * 2 ^ E) (b / 2 ^ 52) := by
  have positive : 0 < b := (two_zpow_pos _).trans_le least
  have high := log2_le_of_le hM (bound.trans most)
  rcases le_or_gt (-1074) (M.log2 + E - 52) with normal | small
  · obtain ⟨k, hk⟩ : ∃ k : ℕ, M.log2 = 52 + k := ⟨M.log2 - 52, by omega⟩
    obtain ⟨t, rfl⟩ : ∃ t : ℤ, E = t - k := ⟨E + k, by ring⟩
    have target : Format.binary64.targetExponent (totalExponent M (t - k)) = t := by
      rw [targetExponent_eq, totalExponent]
      omega
    obtain ⟨m, e, h, rounded, normal, above, rounds⟩ := round_narrowed (t := t) s hM hk (by omega)
    rw [← round_eq_of_target s target, rounded]
    refine ⟨unpack_pack (normal.canonical (by omega)), rfl, ?_⟩
    rw [number, abs_apply_sub]
    exact rounds.error positive (by rwa [abs_of_nonneg (by positivity)])
  · obtain ⟨k, rfl⟩ : ∃ k : ℕ, E = -1074 - k := ⟨(-1074 - E).toNat, by omega⟩
    have below : M < 2 ^ 52 * 2 ^ k := by
      rw [← Nat.pow_add]
      exact (Nat.log2_lt (Nat.ne_of_gt hM)).mp (by omega)
    exact roundWithAccuracy_near_of_subnormal s hM below least

theorem unpacked_mul (x y : Float) : unpacked (x * y) =
    (Float.Model.pack (UnpackedFloat.mul Format.binary64 (unpacked x) (unpacked y))).unpack := rfl

theorem apply_mul_apply (s s' : Sign) (m m' : ℕ) :
    ((s * s').apply (m * m' : ℕ) : ℤ) = s.apply m * s'.apply m' := by
  cases s with
  | positive => cases s' with
    | positive => exact Int.natCast_mul m m'
    | negative => exact (congrArg Neg.neg (Int.natCast_mul m m')).trans (Int.mul_neg _ _).symm
  | negative => cases s' with
    | positive => exact (congrArg Neg.neg (Int.natCast_mul m m')).trans (Int.neg_mul _ _).symm
    | negative => exact (Int.natCast_mul m m').trans (Int.neg_mul_neg _ _).symm

theorem Canonical.product_bits (c : Canonical m e) (c' : Canonical m' e') (h : 0 < m)
    (h' : 0 < m') : 52 ≤ (m * m').log2 ∨ e + e' ≤ -1074 := by
  have product := Nat.mul_pos h h'
  rcases c.full with full | least
  · exact Or.inl ((Nat.le_log2 (Nat.ne_of_gt product)).mpr
      (full.trans (Nat.le_mul_of_pos_right m h')))
  · rcases c'.full with full | least'
    · left
      refine (Nat.le_log2 (Nat.ne_of_gt product)).mpr (full.trans ?_)
      exact Nat.le_mul_of_pos_left m' h
    · omega

theorem mul_error {b : ℚ} (hx : x.isFinite = true) (hy : y.isFinite = true)
    (least : 2 ^ (-1000 : ℤ) ≤ b) (most : b ≤ 2 ^ 1000) (bound : |value x * value y| ≤ b) :
    (x * y).isFinite = true ∧ |value (x * y) - value x * value y| ≤ b / 2 ^ 52 := by
  have positive : 0 < b := (two_zpow_pos _).trans_le least
  change (unpacked (x * y)).isFinite = true ∧ |number (unpacked (x * y)) - _| ≤ _
  rw [unpacked_mul]
  have none : ∀ s, (Float.Model.pack (.zero s)).unpack.isFinite = true ∧
      |number (Float.Model.pack (.zero s)).unpack - 0| ≤ b / 2 ^ 52 := by
    intro s
    rw [unpack_pack_zero]
    refine ⟨rfl, ?_⟩
    have share : 0 ≤ b / 2 ^ 52 := by positivity
    simpa [number] using share
  rcases finite_cases hx with ⟨s, zero⟩ | ⟨s, m, e, h, finite, c⟩
  · rw [value_of_zero zero, zero_mul, zero]
    rcases finite_cases hy with ⟨s', zero'⟩ | ⟨s', m', e', h', finite', c'⟩
    · rw [zero']
      exact none _
    · rw [finite']
      exact none _
  · rcases finite_cases hy with ⟨s', zero'⟩ | ⟨s', m', e', h', finite', c'⟩
    · rw [value_of_zero zero', mul_zero, finite, zero']
      exact none _
    · have product : value x * value y = (s * s').apply (m * m' : ℕ) * 2 ^ (e + e') := by
        rw [value_of_finite finite, value_of_finite finite', apply_mul_apply,
          zpow_add₀ two_ne_zero]
        push_cast
        ring
      rw [product] at bound ⊢
      rw [abs_mul, abs_of_pos (two_zpow_pos _), ← Int.cast_abs, abs_apply, Int.cast_natCast]
        at bound
      obtain ⟨kept, isFinite, near⟩ := roundWithAccuracy_near (s * s') (Nat.mul_pos h h')
        (c.product_bits c' h h') least most bound
      rw [finite, finite']
      change (Float.Model.pack (roundWithAccuracy Format.binary64 (s * s') (m * m') (e + e')
        .exact)).unpack.isFinite = true ∧ |number (Float.Model.pack (roundWithAccuracy
        Format.binary64 (s * s') (m * m') (e + e') .exact)).unpack - _| ≤ _
      rw [kept]
      exact ⟨isFinite, near⟩

theorem unpacked_of_value_zero (hx : x.isFinite = true) (none : value x = 0) :
    ∃ s, unpacked x = .zero s := by
  rcases finite_cases hx with zero | ⟨_ | _, m, e, h, finite, _⟩
  · exact zero
  · rw [value_of_negative finite, neg_eq_zero] at none
    exact absurd none (number_pos h e).ne'
  · rw [value_of_positive finite] at none
    exact absurd none (number_pos h e).ne'

theorem mul_of_zero (hx : x.isFinite = true) (none : value x = 0) (hy : y.isFinite = true) :
    (x * y).isFinite = true ∧ value (x * y) = 0 := by
  suffices packed : ∃ s, unpacked (x * y) = .zero s by
    obtain ⟨s, zero⟩ := packed
    refine ⟨?_, value_of_zero zero⟩
    change (unpacked (x * y)).isFinite = true
    rw [zero]
    rfl
  obtain ⟨s, zero⟩ := unpacked_of_value_zero hx none
  rw [unpacked_mul, zero]
  rcases finite_cases hy with ⟨s', zero'⟩ | ⟨s', m, e, h, finite, _⟩
  · rw [zero']
    exact ⟨_, unpack_pack_zero _⟩
  · rw [finite]
    exact ⟨_, unpack_pack_zero _⟩

theorem one_mul (hy : y.isFinite = true) : 1.0 * y = y := by
  apply eq_of_unpacked
  rw [unpacked_mul, unpacked_one]
  have sign : ∀ s : Sign, .positive * s = s := by
    intro s
    cases s <;> rfl
  rcases finite_cases hy with ⟨s, zero⟩ | ⟨s, m, e, h, finite, c⟩
  · rw [zero]
    change (Float.Model.pack (.zero (.positive * s))).unpack = _
    rw [sign, unpack_pack_zero]
  · have product := roundWithAccuracy_exact c.normal h s 52
    rw [finite]
    change (Float.Model.pack
      (roundWithAccuracy Format.binary64 (.positive * s) (2 ^ 52 * m) (-52 + e) .exact)).unpack = _
    rw [sign, Nat.mul_comm, show -52 + e = e - (52 : ℕ) by omega, product]
    exact unpack_pack c

theorem mul_of_one (hx : x.isFinite = true) (one : value x = 1) (hy : y.isFinite = true) :
    x * y = y := by
  rcases eq_of_value hx isFinite_one (one.trans value_one.symm) with rfl | ⟨_, _, zero, _⟩
  · exact one_mul hy
  · rw [value_of_zero zero] at one
    exact absurd one zero_ne_one

/-! ## Errors of small results -/

/-- A double that stands for a number, up to an error. -/
def Tracks (x : Float) (z error : ℚ) : Prop := x.isFinite = true ∧ |value x - z| ≤ error

/-- How much rounding adds to the error of a result that is not above four. -/
def roundoff : ℚ := 4 / 2 ^ 52

structure Portion (x : Float) : Prop where
  finite : x.isFinite = true
  low : 0 ≤ value x
  high : value x ≤ 1

namespace Tracks

variable {a : Float} {z z' d d' α : ℚ}

theorem refl (hx : x.isFinite = true) : Tracks x (value x) 0 := ⟨hx, by simp⟩

theorem mono (hx : Tracks x z d) (le : d ≤ d') : Tracks x z d' := ⟨hx.1, hx.2.trans le⟩

theorem zero_iff : Tracks x 0 d ↔ x.isFinite = true ∧ |value x| ≤ d := by
  simp [Tracks]

theorem value_eq (hx : Tracks x z 0) : value x = z := by
  have none := abs_nonpos_iff.mp hx.2
  linarith

theorem neg (hx : Tracks x z d) : Tracks (-x) (-z) d := by
  refine ⟨(isFinite_neg x).trans hx.1, ?_⟩
  rw [value_neg, ← neg_sub', abs_neg]
  exact hx.2

theorem sub (hx : Tracks x z d) (hy : Tracks y z' d') (bound : |z - z'| + (d + d') ≤ 4) :
    Tracks (x - y) (z - z') (d + d' + roundoff) := by
  have apart : |value x - value y - (z - z')| ≤ d + d' := calc
    |value x - value y - (z - z')| = |(value x - z) - (value y - z')| := by ring_nf
    _ ≤ |value x - z| + |value y - z'| := abs_sub _ _
    _ ≤ d + d' := add_le_add hx.2 hy.2
  have small : |value x - value y| ≤ 4 := calc
    |value x - value y| = |(z - z') + (value x - value y - (z - z'))| := by ring_nf
    _ ≤ |z - z'| + |value x - value y - (z - z')| := abs_add_le _ _
    _ ≤ 4 := by linarith
  obtain ⟨finite, rounds⟩ := sub_rounds hx.1 hy.1 (small_of_le (small.trans (by norm_num)))
  refine ⟨finite, ?_⟩
  calc |value (x - y) - (z - z')|
      = |(value x - value y - (z - z')) + (value (x - y) - (value x - value y))| := by ring_nf
    _ ≤ |value x - value y - (z - z')| + |value (x - y) - (value x - value y)| := abs_add_le _ _
    _ ≤ d + d' + roundoff := add_le_add apart (rounds.error (by norm_num) small)

theorem add (hx : Tracks x z d) (hy : Tracks y z' d') (bound : |z + z'| + (d + d') ≤ 4) :
    Tracks (x + y) (z + z') (d + d' + roundoff) := by
  rw [← sub_neg_eq_add z z'] at bound ⊢
  rw [add_eq_sub_neg]
  exact hx.sub hy.neg bound

theorem mul (ha : Tracks a α d) (hx : Portion x) (bound : |α| + d ≤ 4) :
    Tracks (a * x) (α * value x) (d * value x + roundoff) := by
  have apart : |value a * value x - α * value x| ≤ d * value x := by
    rw [← sub_mul, abs_mul, abs_of_nonneg hx.low]
    exact mul_le_mul_of_nonneg_right ha.2 hx.low
  have factor : |value a| ≤ 4 := calc
    |value a| = |α + (value a - α)| := by ring_nf
    _ ≤ |α| + |value a - α| := abs_add_le _ _
    _ ≤ 4 := by linarith [ha.2]
  have small : |value a * value x| ≤ 4 := by
    rw [abs_mul, abs_of_nonneg hx.low]
    nlinarith [hx.low, hx.high, abs_nonneg (value a)]
  obtain ⟨finite, error⟩ := mul_error ha.1 hx.finite
    ((zpow_le_one_of_nonpos₀ one_le_two (by decide)).trans (by norm_num))
    ((by norm_num : (4 : ℚ) ≤ 2 ^ 2).trans (pow_le_pow_right₀ one_le_two (by decide))) small
  refine ⟨finite, ?_⟩
  calc |value (a * x) - α * value x|
      = |(value a * value x - α * value x) + (value (a * x) - value a * value x)| := by ring_nf
    _ ≤ |value a * value x - α * value x| + |value (a * x) - value a * value x| := abs_add_le _ _
    _ ≤ d * value x + roundoff := add_le_add apart error

/-! ### Where nothing is rounded -/

theorem sub_exact (hx : Tracks x z 0) (hy : Tracks y z' 0) (bound : |z - z'| ≤ 4)
    (short : Short (z - z')) : Tracks (x - y) (z - z') 0 := by
  rw [← hx.value_eq, ← hy.value_eq] at bound short ⊢
  have small : |value x - value y| ≤ 2 ^ 53 := bound.trans (by norm_num)
  refine ⟨(sub_rounds hx.1 hy.1 (small_of_le small)).1, ?_⟩
  rw [Double.sub_exact hx.1 hy.1 small short]
  norm_num

theorem add_exact (hx : Tracks x z 0) (hy : Tracks y z' 0) (bound : |z + z'| ≤ 4)
    (short : Short (z + z')) : Tracks (x + y) (z + z') 0 := by
  rw [← sub_neg_eq_add z z'] at bound short ⊢
  rw [add_eq_sub_neg]
  exact hx.sub_exact hy.neg bound short

theorem mul_exact (ha : Tracks a α 0) (plain : α = 0 ∨ α = 1) (hx : x.isFinite = true) :
    Tracks (a * x) (α * value x) 0 := by
  rcases plain with rfl | rfl
  · obtain ⟨finite, none⟩ := mul_of_zero ha.1 ha.value_eq hx
    refine ⟨finite, ?_⟩
    rw [none]
    norm_num
  · rw [mul_of_one ha.1 ha.value_eq hx]
    refine ⟨hx, ?_⟩
    norm_num

end Tracks

end CrystalModel.Double
