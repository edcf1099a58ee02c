import CrystalModel.Proofs.Numeric.Arithmetic

/-! # What is left above the whole part

The difference of a double to the greatest whole number below it is rounded. It is still a number
from zero to one, unless there is no such number. -/
namespace CrystalModel.Double

open Float.Model Float.Model.UnpackedFloat

variable {x y : Float} {s : Sign} {m : Nat} {e : Int} {h : 0 < m}

/-- Zero, or a number above zero that is at most one. -/
def AtMostOne (u : UnpackedFloat) : Prop :=
  u = .zero .positive ∨ ∃ (m k : Nat) (h : 0 < m),
    u = .finite .positive m (-(k : Int)) h ∧ Canonical m (-(k : Int)) ∧ 0 < k ∧ m ≤ 2 ^ k

theorem normalize_atMostOne {d p : Nat} (hp : p ≤ 1074) (below : d < 2 ^ p) :
    AtMostOne (Float.Model.pack (normalize Format.binary64 d (-(p : Int)) .positive)).unpack := by
  by_cases vanishes : d = 0
  · subst vanishes
    exact Or.inl (unpack_pack_zero .positive)
  · have positive : compare (d : Int) 0 = .gt := Int.compare_eq_gt.mpr (by omega)
    obtain ⟨m, k, h, rounded, c, hk, hm⟩ :=
      round_le_one (Nat.pos_of_ne_zero vanishes) hp below .positive
    rw [UnpackedFloat.normalize, positive]
    simp only [Int.toNat_natCast]
    rw [rounded]
    exact Or.inr ⟨m, k, h, unpack_pack c, c, hk, hm⟩

theorem apply_mul (s : Sign) (a b : Nat) : s.apply (a * b : Nat) = s.apply a * b := by
  cases s <;> simp only [Sign.apply, Int.natCast_mul, Int.neg_mul]

theorem sub_whole_atMostOne {n j k r : Nat} {hn : 0 < n * 2 ^ j}
    (hx : unpacked x = .finite s m (-((k + 1 : Nat) : Int)) h)
    (hy : unpacked y = .finite s (n * 2 ^ j) (-(j : Int)) hn) (hk : k + 1 ≤ 1074) (hj : j ≤ 1074)
    (difference : s.apply m - s.apply (n * 2 ^ (k + 1) : Nat) = r) (below : r < 2 ^ (k + 1)) :
    AtMostOne (unpacked (x - y)) := by
  obtain ⟨p, hp⟩ : ∃ p, p = max (k + 1) j := ⟨_, rfl⟩
  have least : min (-((k + 1 : Nat) : Int)) (-(j : Int)) = -(p : Int) := by omega
  have left : (-((k + 1 : Nat) : Int) - -(p : Int)).toNat = p - (k + 1) := by omega
  have right : (-(j : Int) - -(p : Int)).toNat = p - j := by omega
  have scaled : n * 2 ^ j * 2 ^ (p - j) = n * 2 ^ (k + 1) * 2 ^ (p - (k + 1)) := by
    rw [Nat.mul_assoc, ← Nat.pow_add, Nat.mul_assoc, ← Nat.pow_add,
      show j + (p - j) = k + 1 + (p - (k + 1)) by omega]
  have fits : r * 2 ^ (p - (k + 1)) < 2 ^ p := by
    calc r * 2 ^ (p - (k + 1)) < 2 ^ (k + 1) * 2 ^ (p - (k + 1)) :=
          Nat.mul_lt_mul_of_pos_right below (Nat.two_pow_pos _)
      _ = 2 ^ p := by rw [← Nat.pow_add, show k + 1 + (p - (k + 1)) = p by omega]
  rw [unpacked_sub, hx, hy]
  simp only [UnpackedFloat.sub, decreaseExponent, least, left, right, Nat.shiftLeft_eq]
  rw [scaled, apply_mul, apply_mul s (n * 2 ^ (k + 1)), ← Int.sub_mul, difference,
    ← Int.natCast_mul]
  exact normalize_atMostOne (by omega) fits

theorem floor_whole (hx : unpacked x = .finite s m e h) (whole : 0 ≤ e) : Numeric.floor x = x := by
  obtain ⟨n, rfl⟩ := Int.eq_ofNat_of_zero_le whole
  unfold Numeric.floor
  rw [show x.toModel.unpack = _ from hx]

theorem floor_positive {k : Nat} (hx : unpacked x = .finite .positive m (.negSucc k) h) :
    Numeric.floor x = Float.ofNat (m / 2 ^ (k + 1)) := by
  unfold Numeric.floor
  rw [show x.toModel.unpack = _ from hx]
  rfl

theorem floor_negative {k : Nat} (hx : unpacked x = .finite .negative m (.negSucc k) h) :
    Numeric.floor x = -Float.ofNat ((m + 2 ^ (k + 1) - 1) / 2 ^ (k + 1)) := by
  unfold Numeric.floor
  rw [show x.toModel.unpack = _ from hx]
  rfl

theorem fraction_positive {k : Nat} (hx : unpacked x = .finite .positive m (.negSucc k) h) :
    AtMostOne (unpacked (x - Numeric.floor x)) := by
  have c := canonical_of_unpacked hx
  have least := c.least
  rw [floor_positive hx]
  by_cases vanishes : m / 2 ^ (k + 1) = 0
  · have below : m < 2 ^ (k + 1) := by
      simpa [Nat.div_eq_zero_iff] using vanishes
    rw [vanishes, ofNat_zero, sub_zero hx]
    exact Or.inr ⟨m, k + 1, h, hx, c, by omega, Nat.le_of_lt below⟩
  · have high : m / 2 ^ (k + 1) < 2 ^ 53 := Nat.lt_of_le_of_lt (Nat.div_le_self _ _) c.bits
    have whole := unpacked_ofNat (Nat.pos_of_ne_zero vanishes) high
    have parts := Nat.div_add_mod' m (2 ^ (k + 1))
    refine sub_whole_atMostOne hx whole (by omega) (by omega) ?_ (Nat.mod_lt m (Nat.two_pow_pos _))
    simp only [Sign.apply]
    omega

theorem ceil_div {m u : Nat} (hm : 0 < m) (hu : 0 < u) : (m + u - 1) / u ≤ m ∧
    m ≤ (m + u - 1) / u * u ∧ (m + u - 1) / u * u < m + u := by
  have parts := Nat.div_add_mod' (m + u - 1) u
  have rest := Nat.mod_lt (m + u - 1) hu
  refine ⟨Nat.div_le_of_le_mul ?_, by omega, by omega⟩
  obtain ⟨m, rfl⟩ := Nat.exists_eq_add_one.mpr hm
  obtain ⟨u, rfl⟩ := Nat.exists_eq_add_one.mpr hu
  have := Nat.zero_le (u * m)
  rw [Nat.mul_add, Nat.add_mul]
  omega

theorem fraction_negative {k : Nat} (hx : unpacked x = .finite .negative m (.negSucc k) h) :
    AtMostOne (unpacked (x - Numeric.floor x)) := by
  have c := canonical_of_unpacked hx
  have least := c.least
  obtain ⟨few, reach, short⟩ := ceil_div h (Nat.two_pow_pos (k + 1))
  generalize counted : (m + 2 ^ (k + 1) - 1) / 2 ^ (k + 1) = n at few reach short
  have positive : 0 < n := by
    refine Nat.pos_of_ne_zero ?_
    rintro rfl
    omega
  have high : n < 2 ^ 53 := Nat.lt_of_le_of_lt few c.bits
  have whole : unpacked (-Float.ofNat n) = .finite .negative (n * 2 ^ (52 - n.log2))
      (-((52 - n.log2 : Nat) : Int)) (Nat.mul_pos positive (Nat.two_pow_pos _)) := by
    have same := unpacked_ofNat positive high
    rw [unpacked_neg, same]
    exact unpack_pack (canonical_of_unpacked same)
  rw [floor_negative hx, counted]
  refine sub_whole_atMostOne hx whole (by omega) (by omega)
    (r := n * 2 ^ (k + 1) - m) ?_ (by omega)
  simp only [Sign.apply]
  omega

theorem fraction_nan (hx : x.isFinite = false) :
    unpacked (x - Numeric.floor x) = .notANumber := by
  rcases not_finite_cases hx with ⟨s, infinite⟩ | nan
  · have same : Numeric.floor x = x := by
      unfold Numeric.floor
      rw [show x.toModel.unpack = _ from infinite]
    rw [same, unpacked_sub, infinite]
    cases s <;> exact unpack_pack_nan
  · exact sub_nan (Or.inl nan)

theorem fraction_cases (x : Float) : unpacked (x - Numeric.floor x) = .notANumber ∨
    AtMostOne (unpacked (x - Numeric.floor x)) := by
  rcases Bool.eq_false_or_eq_true x.isFinite with finite | infinite
  · refine Or.inr ?_
    rcases finite_cases finite with ⟨s, hx⟩ | ⟨s, m, e, h, hx, _⟩
    · have same : Numeric.floor x = x := by
        unfold Numeric.floor
        rw [show x.toModel.unpack = _ from hx]
      left
      rw [same, unpacked_sub, hx]
      cases s <;> exact unpack_pack_zero .positive
    · rcases e with n | k
      · rw [floor_whole hx (Int.natCast_nonneg n), sub_self hx]
        exact Or.inl unpacked_zero
      · cases s with
        | positive => exact fraction_positive hx
        | negative => exact fraction_negative hx
  · exact Or.inl (fraction_nan infinite)

end CrystalModel.Double
