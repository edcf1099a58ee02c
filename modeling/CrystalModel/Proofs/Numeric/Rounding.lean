import CrystalModel.Proofs.Numeric.Double

/-! # Rounding of significands

Numbers that fit into a double are not rounded, and a number below one is rounded to at most
one. -/
namespace CrystalModel.Double

open Float.Model Float.Model.UnpackedFloat

theorem log2_mul_two_pow {m : Nat} (hm : 0 < m) (k : Nat) : (m * 2 ^ k).log2 = m.log2 + k := by
  have low := Nat.log2_self_le (Nat.ne_of_gt hm)
  have high := Nat.lt_log2_self (n := m)
  have positive := Nat.two_pow_pos k
  refine (Nat.log2_eq_iff (Nat.ne_of_gt (Nat.mul_pos hm positive))).mpr ⟨?_, ?_⟩
  · rw [Nat.pow_add]
    exact Nat.mul_le_mul_right _ low
  · rw [Nat.add_right_comm, Nat.pow_add]
    exact Nat.mul_lt_mul_of_pos_right high positive

theorem targetExponent_eq (e : Int) : Format.binary64.targetExponent e = max (e - 53) (-1074) := rfl

theorem Normal.target {m : Nat} {e : Int} (n : Normal m e) (hm : 0 < m) :
    Format.binary64.targetExponent (totalExponent m e) = e := by
  have low : m.log2 < 53 := (Nat.log2_lt (Nat.ne_of_gt hm)).mpr n.bits
  rw [targetExponent_eq, totalExponent]
  rcases n.full with full | least
  · have : 52 ≤ m.log2 := (Nat.le_log2 (Nat.ne_of_gt hm)).mpr full
    have := n.least
    omega
  · omega

theorem shiftRight_exact (m k : Nat) :
    ExtendedMantissa.ofMantissaAndAccuracy (m * 2 ^ k) .exact >>> k =
      ExtendedMantissa.ofMantissaAndAccuracy m .exact := by
  change k.repeat ExtendedMantissa.shiftRightOne _ = _
  induction k generalizing m with
  | zero => simp [Nat.repeat]
  | succ k ih =>
    rw [Nat.repeat, Nat.pow_succ', ← Nat.mul_assoc, ih]
    simp [ExtendedMantissa.shiftRightOne, ExtendedMantissa.ofMantissaAndAccuracy]

theorem shiftToTargetExponent_exact {m : Nat} {e : Int} (n : Normal m e) (hm : 0 < m) (k : Nat) :
    shiftToTargetExponent Format.binary64 (m * 2 ^ k) (e - k) .exact =
      (ExtendedMantissa.ofMantissaAndAccuracy m .exact, e) := by
  have total : totalExponent (m * 2 ^ k) (e - k) = totalExponent m e := by
    rw [totalExponent, totalExponent, log2_mul_two_pow hm]
    omega
  rw [shiftToTargetExponent, total, n.target hm, shiftToExponent,
    show (e - (e - k)).toNat = k by omega, shiftRight_exact]
  simp

/-- Rounding ends with a significand that fits, once it is shifted to its exponent. -/
theorem roundWithAccuracy_of_shift {s : Sign} {M m k : Nat} {E e : Int} {em : ExtendedMantissa}
    (first : shiftToTargetExponent Format.binary64 M E .exact = (em, e - k))
    (rounded : em.roundedMantissa = m * 2 ^ k) (n : Normal m e) (hm : 0 < m) :
    roundWithAccuracy Format.binary64 s M E .exact = .finite s m e hm := by
  simp only [roundWithAccuracy, first, rounded, shiftToTargetExponent_exact n hm]
  exact dif_neg (Nat.ne_of_gt hm)

theorem roundWithAccuracy_exact {m : Nat} {e : Int} (n : Normal m e) (hm : 0 < m) (s : Sign)
    (k : Nat) : roundWithAccuracy Format.binary64 s (m * 2 ^ k) (e - k) .exact =
      .finite s m e hm := by
  have first : shiftToTargetExponent Format.binary64 (m * 2 ^ k) (e - k) .exact =
      (ExtendedMantissa.ofMantissaAndAccuracy m .exact, e - (0 : Nat)) := by
    rw [shiftToTargetExponent_exact n hm, Int.natCast_zero, Int.sub_zero]
  exact roundWithAccuracy_of_shift first (Nat.mul_one m).symm n hm

theorem round_exact {M : Nat} {E e : Int} (k : Nat) (hM : 0 < M * 2 ^ k) (he : e = E - k)
    (n : Normal (M * 2 ^ k) e) (s : Sign) :
    round Format.binary64 s M E = .finite s (M * 2 ^ k) e hM := by
  have positive : 0 < M := Nat.pos_of_mul_pos_right hM
  have total : totalExponent M E = totalExponent (M * 2 ^ k) e := by
    rw [totalExponent, totalExponent, log2_mul_two_pow positive]
    omega
  have unrounded := roundWithAccuracy_exact n hM s 0
  rw [Nat.pow_zero, Nat.mul_one, Int.natCast_zero, Int.sub_zero] at unrounded
  rw [UnpackedFloat.round, total, n.target hM, decreaseExponent, Nat.shiftLeft_eq,
    show (E - e).toNat = k by omega, ← he]
  exact unrounded

theorem normal_widened {M k : Nat} {e : Int} (hM : 0 < M)
    (target : e = max (M.log2 + (e + k) - 52) (-1074)) : Normal (M * 2 ^ k) e := by
  refine ⟨?_, by omega, ?_⟩
  · calc M * 2 ^ k < 2 ^ (M.log2 + 1) * 2 ^ k :=
          Nat.mul_lt_mul_of_pos_right Nat.lt_log2_self (Nat.two_pow_pos _)
      _ = 2 ^ (M.log2 + 1 + k) := (Nat.pow_add _ _ _).symm
      _ ≤ 2 ^ 53 := Nat.pow_le_pow_right (by decide) (by omega)
  · by_cases least : e = -1074
    · exact Or.inr least
    · left
      calc 2 ^ 52 = 2 ^ M.log2 * 2 ^ k := by rw [← Nat.pow_add, show M.log2 + k = 52 by omega]
        _ ≤ M * 2 ^ k := Nat.mul_le_mul_right _ (Nat.log2_self_le (Nat.ne_of_gt hM))

theorem round_eq_of_target {M k : Nat} {e : Int} (s : Sign)
    (target : Format.binary64.targetExponent (totalExponent M (e - k)) = e) :
    round Format.binary64 s M (e - k) =
      roundWithAccuracy Format.binary64 s M (e - k) .exact := by
  rw [UnpackedFloat.round, target, decreaseExponent, show (e - k - e).toNat = 0 by omega]
  simp

theorem roundedMantissa_bounds (em : ExtendedMantissa) :
    em.mantissa ≤ em.roundedMantissa ∧ em.roundedMantissa ≤ em.mantissa + 1 := by
  obtain ⟨m, roundBit, stickyBit⟩ := em
  cases roundBit <;> cases stickyBit <;>
    simp [ExtendedMantissa.roundedMantissa, ExtendedMantissa.accuracy,
      Accuracy.roundToNearestEven]
  omega

theorem shiftRight_mantissa (em : ExtendedMantissa) (k : Nat) :
    (em >>> k).mantissa = em.mantissa / 2 ^ k := by
  change (k.repeat ExtendedMantissa.shiftRightOne em).mantissa = _
  induction k with
  | zero => simp [Nat.repeat]
  | succ k ih =>
    rw [Nat.repeat, ExtendedMantissa.shiftRightOne, ih, Nat.div_div_eq_div_mul, Nat.pow_succ]

/-- A significand with too many bits loses the last ones. What is left is less than one unit away
from it, unless rounding up makes it a power of two. -/
theorem roundWithAccuracy_inexact {M k : Nat} (s : Sign) {e : Int} (low : 2 ^ 52 * 2 ^ k ≤ M)
    (high : M < 2 ^ 53 * 2 ^ k) (hlow : -1074 ≤ e) :
    ∃ m e' h, roundWithAccuracy Format.binary64 s M (e - k) .exact = .finite s m e' h ∧
      Normal m e' ∧ ((e' = e ∧ M / 2 ^ k ≤ m ∧ m ≤ M / 2 ^ k + 1) ∨
        (e' = e + 1 ∧ m = 2 ^ 52 ∧ M / 2 ^ k + 1 = 2 ^ 53)) := by
  have positive := Nat.two_pow_pos k
  have bits : M.log2 = 52 + k := by
    refine (Nat.log2_eq_iff (by omega)).mpr ⟨?_, ?_⟩
    · rw [Nat.pow_add]
      exact low
    · rw [Nat.add_right_comm, Nat.pow_add]
      exact high
  have target : Format.binary64.targetExponent (totalExponent M (e - k)) = e := by
    rw [targetExponent_eq, totalExponent, bits]
    omega
  let em := ExtendedMantissa.ofMantissaAndAccuracy M .exact >>> k
  have first : shiftToTargetExponent Format.binary64 M (e - k) .exact = (em, e) := by
    rw [shiftToTargetExponent, target, shiftToExponent, show (e - (e - k)).toNat = k by omega]
    simp [em]
  have qlow : 2 ^ 52 ≤ M / 2 ^ k := (Nat.le_div_iff_mul_le positive).mpr low
  have qhigh : M / 2 ^ k < 2 ^ 53 := (Nat.div_lt_iff_lt_mul positive).mpr high
  obtain ⟨atLeast, atMost⟩ := roundedMantissa_bounds em
  rw [shiftRight_mantissa] at atLeast atMost
  change M / 2 ^ k ≤ _ at atLeast
  change _ ≤ M / 2 ^ k + 1 at atMost
  by_cases fits : em.roundedMantissa < 2 ^ 53
  · have n : Normal em.roundedMantissa e := ⟨fits, hlow, Or.inl (by omega)⟩
    refine ⟨em.roundedMantissa, e, by omega, ?_, n, Or.inl ⟨rfl, atLeast, atMost⟩⟩
    exact roundWithAccuracy_of_shift (k := 0) (by simpa using first) (by simp) n _
  · have n : Normal (2 ^ 52) (e + 1) := ⟨by decide, by omega, Or.inl (Nat.le_refl _)⟩
    refine ⟨2 ^ 52, e + 1, by decide, ?_, n, Or.inr ⟨rfl, rfl, by omega⟩⟩
    have carried : shiftToTargetExponent Format.binary64 M (e - k) .exact =
        (em, e + 1 - (1 : Nat)) := by
      rw [first, show e + 1 - ((1 : Nat) : Int) = e by omega]
    exact roundWithAccuracy_of_shift carried (by omega) n _

theorem round_le_one {M n : Nat} (hM : 0 < M) (hn : n ≤ 1074) (below : M < 2 ^ n) (s : Sign) :
    ∃ (m k : Nat) (h : 0 < m), round Format.binary64 s M (-(n : Int)) = .finite s m (-(k : Int)) h ∧
      Canonical m (-(k : Int)) ∧ 0 < k ∧ m ≤ 2 ^ k := by
  have bits : M.log2 < n := (Nat.log2_lt (Nat.ne_of_gt hM)).mpr below
  obtain ⟨t, ht⟩ : ∃ t, t = min (n + 52 - M.log2) 1074 := ⟨_, rfl⟩
  by_cases up : n ≤ t
  · have widened : Normal (M * 2 ^ (t - n)) (-(t : Int)) := normal_widened hM (by omega)
    have c := widened.canonical (by omega)
    refine ⟨M * 2 ^ (t - n), t, Nat.mul_pos hM (Nat.two_pow_pos _), ?_, c, by omega, ?_⟩
    · exact round_exact (t - n) _ (by omega) widened s
    · calc M * 2 ^ (t - n) ≤ 2 ^ n * 2 ^ (t - n) := Nat.mul_le_mul_right _ (Nat.le_of_lt below)
        _ = 2 ^ t := by rw [← Nat.pow_add, show n + (t - n) = t by omega]
  · have exponent : -(n : Int) = -(t : Int) - (n - t : Nat) := by omega
    have target : Format.binary64.targetExponent
        (totalExponent M (-(t : Int) - (n - t : Nat))) = -(t : Int) := by
      rw [targetExponent_eq, totalExponent]
      omega
    have least : 2 ^ 52 * 2 ^ (n - t) ≤ M := by
      rw [← Nat.pow_add, show 52 + (n - t) = M.log2 by omega]
      exact Nat.log2_self_le (Nat.ne_of_gt hM)
    have most : M < 2 ^ 53 * 2 ^ (n - t) := by
      rw [← Nat.pow_add, show 53 + (n - t) = M.log2 + 1 by omega]
      exact Nat.lt_log2_self
    rw [exponent, round_eq_of_target s target]
    obtain ⟨m, e, h, rounded, normal, kept | carried⟩ :=
      roundWithAccuracy_inexact s least most (show -1074 ≤ -(t : Int) by omega)
    · obtain ⟨rfl, _, hm⟩ := kept
      have part : M / 2 ^ (n - t) < 2 ^ t := by
        refine (Nat.div_lt_iff_lt_mul (Nat.two_pow_pos _)).mpr ?_
        rwa [← Nat.pow_add, show t + (n - t) = n by omega]
      exact ⟨m, t, h, rounded, normal.canonical (by omega), by omega, by omega⟩
    · obtain ⟨rfl, rfl, _⟩ := carried
      have raised : -(t : Int) + 1 = -((t - 1 : Nat) : Int) := by omega
      rw [raised] at normal rounded
      exact ⟨2 ^ 52, t - 1, h, rounded, normal.canonical (by omega), by omega,
        Nat.pow_le_pow_right (by decide) (by omega)⟩

end CrystalModel.Double
