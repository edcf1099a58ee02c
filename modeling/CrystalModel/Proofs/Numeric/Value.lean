import CrystalModel.Proofs.Numeric.Arithmetic

/-! # The numbers that doubles stand for

Comparisons, negation and the absolute value do with finite doubles what they do with the numbers
behind them. -/
namespace CrystalModel.Double

open Float.Model Float.Model.UnpackedFloat

/-- What sign, significand and exponent stand for. Infinities and NaN stand for no number, and get
zero. -/
def number : UnpackedFloat → ℚ
  | .finite s m e _ => s.apply m * 2 ^ e
  | _ => 0

def value (x : Float) : ℚ := number (unpacked x)

variable {x y : Float} {s : Sign} {m m' : Nat} {e e' : Int} {h : 0 < m}

theorem value_of_zero (hx : unpacked x = .zero s) : value x = 0 := by
  rw [value, hx]
  rfl

theorem value_of_finite (hx : unpacked x = .finite s m e h) : value x = s.apply m * 2 ^ e := by
  rw [value, hx, number]

@[simp] theorem isFinite_zero : (0.0 : Float).isFinite = true := by
  change (unpacked 0.0).isFinite = true
  rw [unpacked_zero]
  rfl

@[simp] theorem isFinite_one : (1.0 : Float).isFinite = true := by
  change (unpacked 1.0).isFinite = true
  rw [unpacked_one]
  rfl

@[simp] theorem value_zero : value 0.0 = 0 := value_of_zero unpacked_zero

@[simp] theorem value_one : value 1.0 = 1 := by
  rw [value_of_finite unpacked_one]
  norm_num [Sign.apply]

theorem two_zpow_pos (e : ℤ) : (0 : ℚ) < 2 ^ e := by positivity

theorem isFinite_of_abs_le (hy : y.isFinite = true) (h : x.abs ≤ y) : x.isFinite = true := by
  rw [le_iff, unpacked_abs] at h
  refine Bool.of_not_eq_false fun hx => ?_
  rcases not_finite_cases hx with ⟨s, infinite⟩ | nan
  · rw [infinite] at h
    rcases finite_cases hy with ⟨s', zero⟩ | ⟨s', m, e, _, finite, _⟩
    · rw [zero] at h
      cases h
    · rw [finite] at h
      cases h
  · rw [nan] at h
    cases h

theorem isFinite_of_sub (hy : y.isFinite = true) (h : (x - y).isFinite = true) :
    x.isFinite = true := by
  refine Bool.of_not_eq_false fun hx => ?_
  have finite : (unpacked (x - y)).isFinite = true := h
  rcases not_finite_cases hx with ⟨s, infinite⟩ | nan
  · have same : unpacked (x - y) = .infinity s := by
      rw [unpacked_sub, infinite]
      rcases finite_cases hy with ⟨s', zero⟩ | ⟨s', m, e, _, other, _⟩
      · rw [zero]
        exact unpack_pack_infinity s
      · rw [other]
        exact unpack_pack_infinity s
    rw [same] at finite
    cases finite
  · rw [sub_nan (Or.inl nan)] at finite
    cases finite

/-! ## Signs -/

theorem apply_neg (s : Sign) (n : Int) : (-s).apply n = -s.apply n := by
  cases s with
  | positive => rfl
  | negative => exact (Int.neg_neg n).symm

theorem neg_unpacked (x : Float) : unpacked (-x) = (unpacked x).neg := by
  rw [unpacked_neg]
  rcases unpack_cases x.toModel with ⟨s, hx⟩ | hx | ⟨s, hx⟩ | ⟨s, m, e, h, hx, c⟩ <;>
    rw [show unpacked x = _ from hx]
  · exact unpack_pack_infinity (-s)
  · exact unpack_pack_nan
  · exact unpack_pack_zero (-s)
  · exact unpack_pack c

@[simp] theorem isFinite_neg (x : Float) : (-x).isFinite = x.isFinite := by
  change (unpacked (-x)).isFinite = (unpacked x).isFinite
  rw [neg_unpacked]
  cases unpacked x <;> rfl

@[simp] theorem value_neg (x : Float) : value (-x) = -value x := by
  rw [value, value, neg_unpacked]
  cases unpacked x with
  | finite s m e h => rw [UnpackedFloat.neg, number, number, apply_neg, Int.cast_neg, neg_mul]
  | _ => exact neg_zero.symm

theorem add_eq_sub_neg (x y : Float) : x + y = x - -y := by
  apply eq_of_unpacked
  rw [unpacked_add, unpacked_sub, neg_unpacked]
  congr 2
  cases unpacked x with
  | finite s m e h => cases unpacked y with
    | finite s' m' e' h' =>
      simp only [UnpackedFloat.add, UnpackedFloat.neg, UnpackedFloat.sub, apply_neg, Int.sub_neg]
    | infinity s' => cases s' <;> rfl
    | _ => rfl
  | infinity s => cases unpacked y with
    | infinity s' => cases s <;> cases s' <;> rfl
    | _ => rfl
  | notANumber => cases unpacked y <;> rfl
  | zero s => cases unpacked y with
    | zero s' => cases s <;> cases s' <;> rfl
    | finite s' m' e' h' => cases s' <;> rfl
    | infinity s' => cases s' <;> rfl
    | notANumber => rfl

@[simp] theorem isFinite_abs (x : Float) : x.abs.isFinite = x.isFinite := by
  change (unpacked x.abs).isFinite = (unpacked x).isFinite
  rw [unpacked_abs]
  cases unpacked x <;> rfl

theorem abs_apply (s : Sign) (m : Nat) : |s.apply m| = m := by
  cases s <;> simp [Sign.apply]

@[simp] theorem value_abs (x : Float) : value x.abs = |value x| := by
  rw [value, value, unpacked_abs]
  cases unpacked x with
  | finite s m e h =>
    rw [UnpackedFloat.abs, number, number, abs_mul, abs_of_pos (two_zpow_pos e), ← Int.cast_abs,
      abs_apply]
    rfl
  | _ => exact abs_zero.symm

/-! ## Order

A greater exponent outweighs every significand, since significands use all their bits unless the
exponent is the least. -/

theorem Canonical.lt_of_exponent (c : Canonical m e) (c' : Canonical m' e') (less : e < e') :
    (m : ℚ) * 2 ^ e < m' * 2 ^ e' := by
  have full : 2 ^ 52 ≤ m' := by
    rcases c'.full with full | least
    · exact full
    · have := c.least
      omega
  calc (m : ℚ) * 2 ^ e < 2 ^ 53 * 2 ^ e := by
        gcongr
        exact_mod_cast c.bits
    _ = 2 ^ 52 * 2 ^ (e + 1) := by rw [zpow_add_one₀ two_ne_zero]; ring
    _ ≤ m' * 2 ^ e' := by
        gcongr
        · exact_mod_cast full
        · exact one_le_two
        · omega

theorem Canonical.compare (c : Canonical m e) (c' : Canonical m' e') :
    (compare e e').then (compare m m') = compare ((m : ℚ) * 2 ^ e) (m' * 2 ^ e') := by
  rcases Int.lt_trichotomy e e' with less | rfl | greater
  · rw [Int.compare_eq_lt.mpr less, compare_lt_iff_lt.mpr (c.lt_of_exponent c' less)]
    rfl
  · rw [compare_eq_iff_eq.mpr rfl]
    change compare m m' = _
    rcases Nat.lt_trichotomy m m' with less | rfl | greater
    · rw [compare_lt_iff_lt.mpr less, compare_lt_iff_lt.mpr]
      gcongr
    · rw [compare_eq_iff_eq.mpr rfl, compare_eq_iff_eq.mpr rfl]
    · rw [compare_gt_iff_gt.mpr greater, compare_gt_iff_gt.mpr]
      exact mul_lt_mul_of_pos_right (by exact_mod_cast greater) (two_zpow_pos e)
  · rw [Int.compare_eq_gt.mpr greater, compare_gt_iff_gt.mpr (c'.lt_of_exponent c greater)]
    rfl

theorem compare_neg_neg (a b : ℚ) : compare (-a) (-b) = (compare a b).swap := by
  rcases lt_trichotomy a b with less | rfl | greater
  · rw [compare_lt_iff_lt.mpr less, compare_gt_iff_gt.mpr (neg_lt_neg less)]
    rfl
  · rw [compare_eq_iff_eq.mpr rfl, compare_eq_iff_eq.mpr rfl]
    rfl
  · rw [compare_gt_iff_gt.mpr greater, compare_lt_iff_lt.mpr (neg_lt_neg greater)]
    rfl

theorem value_of_positive (hx : unpacked x = .finite .positive m e h) : value x = m * 2 ^ e :=
  value_of_finite hx

theorem value_of_negative (hx : unpacked x = .finite .negative m e h) : value x = -(m * 2 ^ e) := by
  rw [value_of_finite hx, Sign.apply, Int.cast_neg, neg_mul]
  rfl

theorem number_pos (h : 0 < m) (e : ℤ) : (0 : ℚ) < m * 2 ^ e := by positivity

theorem compare_value (hx : x.isFinite = true) (hy : y.isFinite = true) :
    (unpacked x).compare (unpacked y) = some (compare (value x) (value y)) := by
  rcases finite_cases hx with ⟨s, zero⟩ | ⟨s, m, e, h, finite, c⟩
  · rw [value_of_zero zero]
    rcases finite_cases hy with ⟨s', zero'⟩ | ⟨_ | _, m', e', h', finite', c'⟩
    · rw [value_of_zero zero', zero, zero', compare_eq_iff_eq.mpr rfl]
      rfl
    · rw [compare_gt_iff_gt.mpr, zero, finite']
      · rfl
      · exact value_of_negative finite' ▸ neg_neg_of_pos (number_pos h' e')
    · rw [compare_lt_iff_lt.mpr, zero, finite']
      · rfl
      · exact value_of_positive finite' ▸ number_pos h' e'
  · rcases finite_cases hy with ⟨s', zero'⟩ | ⟨s', m', e', h', finite', c'⟩
    · rw [value_of_zero zero']
      cases s with
      | negative =>
        rw [compare_lt_iff_lt.mpr, zero', finite]
        · rfl
        · exact value_of_negative finite ▸ neg_neg_of_pos (number_pos h e)
      | positive =>
        rw [compare_gt_iff_gt.mpr, zero', finite]
        · rfl
        · exact value_of_positive finite ▸ number_pos h e
    · have above := number_pos h e
      have above' := number_pos h' e'
      rw [finite, finite']
      cases s with
      | negative =>
        rw [value_of_negative finite]
        cases s' with
        | negative =>
          rw [value_of_negative finite', compare_neg_neg, ← c.compare c']
          rfl
        | positive =>
          rw [value_of_positive finite', compare_lt_iff_lt.mpr (by linarith)]
          rfl
      | positive =>
        rw [value_of_positive finite]
        cases s' with
        | negative =>
          rw [value_of_negative finite', compare_gt_iff_gt.mpr (by linarith)]
          rfl
        | positive =>
          rw [value_of_positive finite', ← c.compare c']
          rfl

theorem le_iff_value (hx : x.isFinite = true) (hy : y.isFinite = true) :
    x ≤ y ↔ value x ≤ value y := by
  rw [le_iff, compare_value hx hy]
  rcases lt_trichotomy (value x) (value y) with less | same | greater
  · rw [compare_lt_iff_lt.mpr less]
    exact iff_of_true rfl less.le
  · rw [compare_eq_iff_eq.mpr same]
    exact iff_of_true rfl same.le
  · rw [compare_gt_iff_gt.mpr greater]
    exact iff_of_false (by decide) (not_le.mpr greater)

theorem lt_iff : x < y ↔ (unpacked x).compare (unpacked y) = some .lt := by
  change decide (x.toModel < y.toModel) = true ↔ _
  rw [decide_eq_true_iff]
  change ((unpacked x).compare (unpacked y) == some .lt) = true ↔ _
  exact beq_iff_eq

theorem lt_iff_value (hx : x.isFinite = true) (hy : y.isFinite = true) :
    x < y ↔ value x < value y := by
  rw [lt_iff, compare_value hx hy, Option.some.injEq, compare_lt_iff_lt]

theorem Canonical.eq_of_number (c : Canonical m e) (c' : Canonical m' e')
    (same : (m : ℚ) * 2 ^ e = m' * 2 ^ e') : m = m' ∧ e = e' := by
  have order := c.compare c'
  rw [compare_eq_iff_eq.mpr same, Ordering.then_eq_eq, compare_eq_iff_eq,
    compare_eq_iff_eq] at order
  exact ⟨order.2, order.1⟩

theorem eq_of_value (hx : x.isFinite = true) (hy : y.isFinite = true) (same : value x = value y) :
    x = y ∨ ∃ s s', unpacked x = .zero s ∧ unpacked y = .zero s' := by
  have order := compare_value hx hy
  rw [compare_eq_iff_eq.mpr same] at order
  rcases finite_cases hx with ⟨s, zero⟩ | ⟨s, m, e, h, finite, c⟩
  · rcases finite_cases hy with ⟨s', zero'⟩ | ⟨s', m', e', h', finite', c'⟩
    · exact Or.inr ⟨s, s', zero, zero'⟩
    · rw [zero, finite'] at order
      cases s' <;> cases order
  · rcases finite_cases hy with ⟨s', zero'⟩ | ⟨s', m', e', h', finite', c'⟩
    · rw [finite, zero'] at order
      cases s <;> cases order
    · left
      apply eq_of_unpacked
      have numbers : s = s' ∧ (m : ℚ) * 2 ^ e = m' * 2 ^ e' := by
        rw [finite, finite'] at order
        cases s <;> cases s'
        · rw [value_of_negative finite, value_of_negative finite', neg_inj] at same
          exact ⟨rfl, same⟩
        · cases order
        · cases order
        · rw [value_of_positive finite, value_of_positive finite'] at same
          exact ⟨rfl, same⟩
      obtain ⟨rfl, numbers⟩ := numbers
      obtain ⟨rfl, rfl⟩ := c.eq_of_number c' numbers
      rw [finite, finite']

end CrystalModel.Double
