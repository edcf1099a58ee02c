import CrystalModel.Proofs.Numeric.Fraction
import CrystalModel.Proofs.Numeric.Value

/-! # What rounding keeps

A result of arithmetic stands to all numbers of 53 bits as the exact result does. So it is exact
where the exact result needs no more bits, and lies in its last place otherwise. -/
namespace CrystalModel.Double

open Float.Model Float.Model.UnpackedFloat

/-- Numbers that 53 bits are enough for. -/
def Short (z : ℚ) : Prop := ∃ n e : ℤ, z = n * 2 ^ e ∧ |n| ≤ 2 ^ 53

/-- No short number lies between the exact number and the rounded one. -/
def Rounds (r z : ℚ) : Prop := ∀ d, Short d → (d ≤ z → d ≤ r) ∧ (z ≤ d → r ≤ d)

variable {r z d : ℚ} {x y : Float}

namespace Short

theorem of_int {n : ℤ} (few : |n| ≤ 2 ^ 53) : Short n := ⟨n, 0, by simp, few⟩

theorem zero : Short 0 := ⟨0, 0, by simp, by decide⟩

theorem neg (h : Short z) : Short (-z) := by
  obtain ⟨n, e, rfl, few⟩ := h
  exact ⟨-n, e, by push_cast; ring, by rwa [abs_neg]⟩

theorem value (x : Float) : Short (Double.value x) := by
  rcases hx : unpacked x with s | _ | s | ⟨s, m, e, h⟩
  · exact (show Double.value x = 0 by rw [Double.value, hx]; rfl) ▸ zero
  · exact (show Double.value x = 0 by rw [Double.value, hx]; rfl) ▸ zero
  · exact value_of_zero hx ▸ zero
  · refine ⟨s.apply m, e, value_of_finite hx, ?_⟩
    rw [abs_apply]
    exact_mod_cast (canonical_of_unpacked hx).bits.le

theorem gap (h : Short d) {q : ℕ} {e : ℤ} (full : 2 ^ 52 ≤ q) :
    d ≤ q * 2 ^ e ∨ (q + 1) * 2 ^ e ≤ d := by
  obtain ⟨n, j, rfl, few⟩ := h
  rcases le_or_gt e j with coarse | fine
  · obtain ⟨k, rfl⟩ := Int.le.dest coarse
    have whole : (n : ℚ) * 2 ^ (e + (k : ℤ)) = (n * 2 ^ k : ℤ) * 2 ^ e := by
      rw [zpow_add₀ two_ne_zero, zpow_natCast]
      push_cast
      ring
    rw [whole]
    rcases le_or_gt (n * 2 ^ k : ℤ) q with low | high
    · left
      gcongr
      exact_mod_cast low
    · right
      gcongr
      exact_mod_cast high
  · left
    have most : (n : ℚ) ≤ 2 ^ 53 := by exact_mod_cast (le_abs_self n).trans few
    calc (n : ℚ) * 2 ^ j ≤ 2 ^ 53 * 2 ^ j := by gcongr
      _ = 2 ^ 52 * 2 ^ (j + 1) := by rw [zpow_add_one₀ two_ne_zero]; ring
      _ ≤ q * 2 ^ e := by
        gcongr
        · exact_mod_cast full
        · exact one_le_two
        · omega

theorem exists_around {k : ℤ} (wide : |z| ≤ 2 ^ 53 * 2 ^ k) :
    ∃ low high, Short low ∧ Short high ∧ low ≤ z ∧ z ≤ high ∧ high - low ≤ 2 ^ k := by
  have unit : (0 : ℚ) < 2 ^ k := two_zpow_pos k
  have parts : |z / 2 ^ k| ≤ 2 ^ 53 := by
    rw [abs_div, abs_of_pos unit, div_le_iff₀ unit]
    exact wide
  obtain ⟨least, most⟩ := abs_le.mp parts
  have below := Int.floor_le (z / 2 ^ k)
  have above := Int.le_ceil (z / 2 ^ k)
  refine ⟨⌊z / 2 ^ k⌋ * 2 ^ k, ⌈z / 2 ^ k⌉ * 2 ^ k, ⟨_, k, rfl, abs_le.mpr ⟨?_, ?_⟩⟩,
    ⟨_, k, rfl, abs_le.mpr ⟨?_, ?_⟩⟩, (le_div_iff₀ unit).mp below, (div_le_iff₀ unit).mp above, ?_⟩
  · exact Int.le_floor.mpr (by push_cast; exact least)
  · exact_mod_cast below.trans most
  · exact_mod_cast least.trans above
  · exact Int.ceil_le.mpr (by push_cast; exact most)
  · have one : (⌈z / 2 ^ k⌉ : ℚ) ≤ ⌊z / 2 ^ k⌋ + 1 := by exact_mod_cast Int.ceil_le_floor_add_one _
    calc (⌈z / 2 ^ k⌉ : ℚ) * 2 ^ k - ⌊z / 2 ^ k⌋ * 2 ^ k
        = (⌈z / 2 ^ k⌉ - ⌊z / 2 ^ k⌋) * 2 ^ k := by ring
      _ ≤ 1 * 2 ^ k := by gcongr; linarith
      _ = 2 ^ k := one_mul _

end Short

theorem exists_unit {b : ℚ} (positive : 0 < b) :
    ∃ k : ℤ, b ≤ 2 ^ 53 * 2 ^ k ∧ 2 ^ k ≤ b / 2 ^ 52 := by
  obtain ⟨k, low, high⟩ := exists_mem_Ioc_zpow positive (one_lt_two : (1 : ℚ) < 2)
  have shifted : ∀ n : ℕ, (2 : ℚ) ^ (k - 52 + n) = 2 ^ n * 2 ^ (k - 52) := by
    intro n
    rw [zpow_add₀ two_ne_zero, zpow_natCast, mul_comm]
  refine ⟨k - 52, ?_, ?_⟩
  · rw [← shifted, show k - 52 + (53 : ℕ) = k + 1 by push_cast; ring]
    exact high
  · rw [le_div_iff₀ (by positivity), mul_comm, ← shifted,
      show k - 52 + (52 : ℕ) = k by push_cast; ring]
    exact low.le

namespace Rounds

theorem refl (z : ℚ) : Rounds z z := fun _ _ => ⟨id, id⟩

theorem neg (h : Rounds r z) : Rounds (-r) (-z) := by
  intro d hd
  obtain ⟨below, above⟩ := h (-d) hd.neg
  constructor
  · intro le
    exact le_neg_of_le_neg (above (le_neg_of_le_neg le))
  · intro le
    exact neg_le_of_neg_le (below (neg_le_of_neg_le le))

/-- Short results are exact. -/
theorem eq_of_short (h : Rounds r z) (hz : Short z) : r = z :=
  le_antisymm ((h z hz).2 le_rfl) ((h z hz).1 le_rfl)

theorem le_of_le (h : Rounds r z) (hd : Short d) (le : z ≤ d) : r ≤ d := (h d hd).2 le

theorem ge_of_ge (h : Rounds r z) (hd : Short d) (le : d ≤ z) : d ≤ r := (h d hd).1 le

/-- The error is at most a unit in the last of 53 bits. -/
theorem error (h : Rounds r z) {b : ℚ} (positive : 0 < b) (bound : |z| ≤ b) :
    |r - z| ≤ b / 2 ^ 52 := by
  obtain ⟨k, wide, small⟩ := exists_unit positive
  obtain ⟨low, high, hlow, hhigh, below, above, near⟩ := Short.exists_around (bound.trans wide)
  have lower := h.ge_of_ge hlow below
  have upper := h.le_of_le hhigh above
  rw [abs_le]
  constructor <;> linarith

theorem of_neighbours {q : ℕ} {e : ℤ} (full : 2 ^ 52 ≤ q) (low : q * 2 ^ e < z)
    (high : z < (q + 1) * 2 ^ e) (least : q * 2 ^ e ≤ r) (most : r ≤ (q + 1) * 2 ^ e) :
    Rounds r z := by
  intro d hd
  rcases hd.gap full (e := e) with before | behind
  · exact ⟨fun _ => before.trans least, fun le => absurd (le.trans before) (not_le.mpr low)⟩
  · exact ⟨fun le => absurd (behind.trans le) (not_le.mpr high), fun _ => most.trans behind⟩

end Rounds

theorem round_widened {M k : ℕ} {t : ℤ} (s : Sign) (hM : 0 < M)
    (ht : t = max (M.log2 + (t + k) - 52) (-1074)) :
    ∃ m e h, round Format.binary64 s M (t + k) = .finite s m e h ∧ Normal m e ∧ e ≤ t + 1 ∧
      Rounds (m * 2 ^ e) (M * 2 ^ (t + (k : ℤ))) := by
  have normal : Normal (M * 2 ^ k) t := normal_widened hM ht
  have positive := Nat.mul_pos hM (Nat.two_pow_pos k)
  refine ⟨M * 2 ^ k, t, positive, round_exact k positive (by omega) normal s, normal, by omega, ?_⟩
  have same : ((M * 2 ^ k : ℕ) : ℚ) * 2 ^ t = M * 2 ^ (t + (k : ℤ)) := by
    rw [zpow_add₀ two_ne_zero, zpow_natCast]
    push_cast
    ring
  rw [same]
  exact .refl _

/-- A significand that was rounded to the next one, and carried where there is none, stays between
both. -/
theorem between_neighbours {q m : ℕ} {t e : ℤ} (fits : q < 2 ^ 53)
    (next : (e = t ∧ q ≤ m ∧ m ≤ q + 1) ∨ (e = t + 1 ∧ m = 2 ^ 52 ∧ q + 1 = 2 ^ 53)) :
    (q : ℚ) * 2 ^ t ≤ m * 2 ^ e ∧ (m : ℚ) * 2 ^ e ≤ (q + 1) * 2 ^ t := by
  rcases next with ⟨rfl, lower, upper⟩ | ⟨rfl, rfl, carried⟩
  · constructor
    · gcongr
    · gcongr
      exact_mod_cast upper
  · have doubled : ((2 ^ 52 : ℕ) : ℚ) * 2 ^ (t + 1) = 2 ^ 53 * 2 ^ t := by
      rw [zpow_add_one₀ two_ne_zero]
      push_cast
      ring
    have most : (q : ℚ) ≤ 2 ^ 53 := by exact_mod_cast fits.le
    have last : (q : ℚ) + 1 = 2 ^ 53 := by exact_mod_cast carried
    rw [doubled, last]
    exact ⟨by gcongr, le_rfl⟩

theorem round_narrowed {M k : ℕ} {t : ℤ} (s : Sign) (hM : 0 < M) (bits : M.log2 = 52 + k)
    (least : -1074 ≤ t) :
    ∃ m e h, round Format.binary64 s M (t - k) = .finite s m e h ∧ Normal m e ∧ e ≤ t + 1 ∧
      Rounds (m * 2 ^ e) (M * 2 ^ (t - (k : ℤ))) := by
  have unit := Nat.two_pow_pos k
  have target : Format.binary64.targetExponent (totalExponent M (t - k)) = t := by
    rw [targetExponent_eq, totalExponent]
    omega
  have low : 2 ^ 52 * 2 ^ k ≤ M := by
    rw [← Nat.pow_add, ← bits]
    exact Nat.log2_self_le (Nat.ne_of_gt hM)
  have high : M < 2 ^ 53 * 2 ^ k := by
    rw [← Nat.pow_add, show 53 + k = M.log2 + 1 by omega]
    exact Nat.lt_log2_self
  obtain ⟨q, hq⟩ : ∃ q, q = M / 2 ^ k := ⟨_, rfl⟩
  have full : 2 ^ 52 ≤ q := hq ▸ (Nat.le_div_iff_mul_le unit).mpr low
  have fits : q < 2 ^ 53 := hq ▸ (Nat.div_lt_iff_lt_mul unit).mpr high
  have scaled : ∀ n : ℕ, (n : ℚ) * 2 ^ t = (n * 2 ^ k : ℕ) * 2 ^ (t - k) := by
    intro n
    rw [zpow_sub₀ two_ne_zero, zpow_natCast]
    push_cast
    field_simp
  rw [round_eq_of_target s target]
  by_cases whole : M = q * 2 ^ k
  · have normal : Normal q t := ⟨fits, least, Or.inl full⟩
    refine ⟨q, t, by omega, whole ▸ roundWithAccuracy_exact normal (by omega) s k, normal,
      by omega, ?_⟩
    rw [scaled q, ← whole]
    exact .refl _
  · obtain ⟨m, e, h, rounded, normal, next⟩ :=
      roundWithAccuracy_inexact (e := t) s low high least
    rw [← hq] at next
    obtain ⟨lower, upper⟩ := between_neighbours fits next
    refine ⟨m, e, h, rounded, normal, by omega, .of_neighbours full ?_ ?_ lower upper⟩
    · rw [scaled q]
      gcongr
      exact_mod_cast lt_of_le_of_ne (hq ▸ Nat.div_mul_le_self M _) (Ne.symm whole)
    · have less : M < (q + 1) * 2 ^ k := by
        rw [hq, Nat.add_mul, Nat.one_mul]
        exact Nat.lt_div_mul_add unit
      have above := scaled (q + 1)
      rw [Nat.cast_succ] at above
      rw [above]
      gcongr

theorem round_rounds {M : ℕ} {E : ℤ} (s : Sign) (hM : 0 < M) (least : -1074 ≤ E) :
    ∃ m e h, round Format.binary64 s M E = .finite s m e h ∧ Normal m e ∧
      e ≤ max (M.log2 + E - 51) (-1073) ∧ Rounds (m * 2 ^ e) (M * 2 ^ E) := by
  obtain ⟨t, ht⟩ : ∃ t : ℤ, t = max (M.log2 + E - 52) (-1074) := ⟨_, rfl⟩
  rw [show max (M.log2 + E - 51) (-1073) = t + 1 by omega]
  rcases le_or_gt t E with up | down
  · obtain ⟨k, rfl⟩ := Int.le.dest up
    exact round_widened s hM ht
  · obtain ⟨k, hk⟩ := Int.le.dest down.le
    obtain rfl : E = t - k := by omega
    exact round_narrowed s hM (by omega) (by omega)

/-! ## Sums and differences -/

/-- The result is a number, and no short number lies between it and the exact result. -/
def RoundsTo (u : UnpackedFloat) (z : ℚ) : Prop := u.isFinite = true ∧ Rounds (number u) z

theorem log2_le_of_le {M : ℕ} {E : ℤ} (hM : 0 < M) (small : (M : ℚ) * 2 ^ E ≤ 2 ^ 1000) :
    M.log2 + E ≤ 1000 := by
  have low : (2 : ℚ) ^ M.log2 ≤ M := by exact_mod_cast Nat.log2_self_le (Nat.ne_of_gt hM)
  have power : (2 : ℚ) ^ (M.log2 + E) ≤ 2 ^ (1000 : ℤ) := by
    rw [zpow_add₀ two_ne_zero, zpow_natCast]
    exact (mul_le_mul_of_nonneg_right low (two_zpow_pos E).le).trans small
  exact (zpow_le_zpow_iff_right₀ one_lt_two).mp power

/-- The result is rounded, or it is no number since the exact one is too great. -/
def RoundsOrOverflows (u : UnpackedFloat) (z : ℚ) : Prop :=
  RoundsTo u z ∨ u.isFinite = false ∧ 2 ^ 1000 < |z|

theorem Rounds.apply {m M : ℕ} {e E : ℤ} (s : Sign) (h : Rounds (m * 2 ^ e) (M * 2 ^ E)) :
    Rounds (s.apply m * 2 ^ e) (s.apply M * 2 ^ E) := by
  cases s with
  | positive => exact h
  | negative =>
    simp only [Sign.apply, Int.cast_neg, neg_mul]
    exact h.neg

theorem round_packed {M : ℕ} {E : ℤ} (s : Sign) (hM : 0 < M) (least : -1074 ≤ E) :
    RoundsOrOverflows (Float.Model.pack (round Format.binary64 s M E)).unpack
      (s.apply M * 2 ^ E) := by
  obtain ⟨m, e, h, rounded, normal, top, near⟩ := round_rounds s hM least
  rw [rounded]
  rcases le_or_gt e 971 with fits | beyond
  · left
    rw [unpack_pack (normal.canonical fits)]
    exact ⟨rfl, near.apply s⟩
  · right
    rw [unpack_pack_overflow beyond]
    refine ⟨rfl, lt_of_not_ge fun small => ?_⟩
    rw [abs_mul, abs_of_pos (two_zpow_pos E), ← Int.cast_abs, abs_apply] at small
    have := log2_le_of_le hM small
    omega

theorem normalize_rounds {N E : ℤ} (least : -1074 ≤ E) : RoundsOrOverflows
    (Float.Model.pack (normalize Format.binary64 N E .positive)).unpack (N * 2 ^ E) := by
  rw [UnpackedFloat.normalize]
  rcases Int.lt_trichotomy N 0 with below | rfl | above
  · obtain ⟨M, rfl⟩ : ∃ M : ℕ, N = -(M : ℤ) := ⟨N.natAbs, by omega⟩
    rw [Int.compare_eq_lt.mpr below]
    simp only [Int.neg_neg, Int.toNat_natCast]
    exact round_packed .negative (by omega) least
  · rw [Int.compare_eq_eq.mpr rfl, Int.cast_zero, zero_mul]
    simp only
    rw [unpack_pack_zero]
    exact Or.inl ⟨rfl, .refl _⟩
  · obtain ⟨M, rfl⟩ : ∃ M : ℕ, N = M := ⟨N.natAbs, by omega⟩
    rw [Int.compare_eq_gt.mpr above]
    simp only [Int.toNat_natCast]
    exact round_packed .positive (by omega) least

theorem scaled_apply (s : Sign) (m : ℕ) {e E : ℤ} (le : E ≤ e) :
    (s.apply (m <<< (e - E).toNat : ℕ) : ℚ) * 2 ^ E = s.apply m * 2 ^ e := by
  obtain ⟨k, rfl⟩ := Int.le.dest le
  rw [show (E + k - E).toNat = k by omega, Nat.shiftLeft_eq, apply_mul, zpow_add₀ two_ne_zero,
    zpow_natCast]
  push_cast
  ring

theorem sub_cases (hx : x.isFinite = true) (hy : y.isFinite = true) :
    RoundsOrOverflows (unpacked (x - y)) (value x - value y) := by
  rw [unpacked_sub]
  rcases finite_cases hx with ⟨s, zero⟩ | ⟨s, m, e, h, finite, c⟩
  · rcases finite_cases hy with ⟨s', zero'⟩ | ⟨s', m', e', h', finite', c'⟩
    · rw [value_of_zero zero, value_of_zero zero', zero, zero', show (0 : ℚ) - 0 = 0 by ring]
      have packed : ∀ s, RoundsTo (Float.Model.pack (.zero s)).unpack 0 := by
        intro s
        rw [unpack_pack_zero]
        exact ⟨rfl, .refl _⟩
      simp only [UnpackedFloat.sub]
      split <;> exact Or.inl (packed _)
    · rw [value_of_zero zero, value_of_finite finite', zero, finite', zero_sub]
      simp only [UnpackedFloat.sub]
      rw [unpack_pack c']
      refine Or.inl ⟨rfl, ?_⟩
      rw [number, apply_neg, Int.cast_neg, neg_mul]
      exact .refl _
  · rcases finite_cases hy with ⟨s', zero'⟩ | ⟨s', m', e', h', finite', c'⟩
    · have same : value x - value y = value x := by
        rw [value_of_zero zero']
        ring
      rw [same, value_of_finite finite, finite, zero']
      simp only [UnpackedFloat.sub]
      rw [unpack_pack c]
      exact Or.inl ⟨rfl, .refl _⟩
    · rw [value_of_finite finite, value_of_finite finite']
      rw [finite, finite']
      simp only [UnpackedFloat.sub, decreaseExponent]
      have unrounded : ((s.apply (m <<< (e - min e e').toNat : ℕ) -
          s'.apply (m' <<< (e' - min e e').toNat : ℕ) : ℤ) : ℚ) * 2 ^ min e e' =
            s.apply m * 2 ^ e - s'.apply m' * 2 ^ e' := by
        rw [Int.cast_sub, sub_mul, scaled_apply s m (min_le_left e e'),
          scaled_apply s' m' (min_le_right e e')]
      rw [← unrounded]
      exact normalize_rounds (le_min c.least c'.least)

theorem sub_rounds (hx : x.isFinite = true) (hy : y.isFinite = true)
    (small : |value x - value y| ≤ 2 ^ 1000) :
    (x - y).isFinite = true ∧ Rounds (value (x - y)) (value x - value y) :=
  (sub_cases hx hy).resolve_right fun overflow => absurd small (not_le.mpr overflow.2)

theorem sub_rounds_of_finite (hx : x.isFinite = true) (hy : y.isFinite = true)
    (finite : (x - y).isFinite = true) : Rounds (value (x - y)) (value x - value y) := by
  rcases sub_cases hx hy with rounds | overflow
  · exact rounds.2
  · exact absurd (overflow.1.symm.trans finite) (by decide)

theorem add_rounds (hx : x.isFinite = true) (hy : y.isFinite = true)
    (small : |value x + value y| ≤ 2 ^ 1000) :
    (x + y).isFinite = true ∧ Rounds (value (x + y)) (value x + value y) := by
  rw [← sub_neg_eq_add, ← value_neg] at small
  rw [add_eq_sub_neg, ← sub_neg_eq_add, ← value_neg y]
  exact sub_rounds hx ((isFinite_neg y).trans hy) small

theorem small_of_le (h : |z| ≤ 2 ^ 53) : |z| ≤ 2 ^ 1000 :=
  h.trans (pow_le_pow_right₀ one_le_two (by decide))

theorem sub_exact (hx : x.isFinite = true) (hy : y.isFinite = true)
    (small : |value x - value y| ≤ 2 ^ 53) (short : Short (value x - value y)) :
    value (x - y) = value x - value y :=
  (sub_rounds hx hy (small_of_le small)).2.eq_of_short short

variable {x' y' : Float}

theorem value_sub_congr (hx : x.isFinite = true) (hx' : x'.isFinite = true)
    (hy : y.isFinite = true) (hy' : y'.isFinite = true) (left : value x = value x')
    (right : value y = value y') (small : |value x - value y| ≤ 2 ^ 53) :
    value (x - y) = value (x' - y') := by
  suffices short : x = x' ∧ y = y' ∨ Short (value x - value y) by
    rcases short with ⟨rfl, rfl⟩ | short
    · rfl
    · rw [sub_exact hx hy small short, left, right]
      rw [left, right] at small short
      rw [sub_exact hx' hy' small short]
  rcases eq_of_value hx hx' left with same | ⟨_, _, zero, _⟩
  · rcases eq_of_value hy hy' right with same' | ⟨_, _, zero', _⟩
    · exact Or.inl ⟨same, same'⟩
    · right
      have only : value x - value y = value x := by
        rw [value_of_zero zero']
        ring
      rw [only]
      exact .value x
  · right
    rw [value_of_zero zero, zero_sub]
    exact (Short.value y).neg

end CrystalModel.Double
