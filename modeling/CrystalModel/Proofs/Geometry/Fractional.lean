import CrystalModel.Proofs.Geometry.Encoder
import CrystalModel.Proofs.Numeric.Fraction

/-! # Places inside the origin cell

A place that was moved into the origin cell stays where it is when it is moved there again, also
from the cell next to it. -/
namespace CrystalModel

open Double Float.Model

namespace Tolerance

variable {t : Tolerance} {a b : Float}

theorem close_iff : t.close a b = true ↔ (a - b).abs ≤ t.width := by
  unfold close compare
  split
  · simp [*]
  · split <;> simp [*]

theorem not_nan_of_close (h : t.close a b = true) :
    unpacked a ≠ .notANumber ∧ unpacked b ≠ .notANumber := by
  have near := close_iff.mp h
  exact ⟨fun nan => not_nan_le (abs_nan (sub_nan (Or.inl nan))) near,
    fun nan => not_nan_le (abs_nan (sub_nan (Or.inr nan))) near⟩

theorem close_of_sub_zero (usable : 0.0 ≤ t.width) (h : a - b = 0.0) : t.close a b = true := by
  rw [close_iff, h, show (0.0 : Float).abs = 0.0 from rfl]
  exact usable

end Tolerance

namespace Fractional

variable {t : Tolerance} {r r' : Float}

/-- What is left of a coordinate that was moved into the origin cell: zero, or a number below one
that is close to neither boundary. -/
def Settled (t : Tolerance) (r : Float) : Prop :=
  r = 0.0 ∨ ∃ (m k : Nat) (h : 0 < m), unpacked r = .finite .positive m (-((k + 1 : Nat) : Int)) h ∧
    m < 2 ^ (k + 1) ∧ t.close r 1.0 = false ∧ t.isZero r = false

theorem eq_one {k : Nat} {h : 0 < 2 ^ k}
    (hr : unpacked r = .finite .positive (2 ^ k) (-(k : Int)) h) :
    r = 1.0 := by
  have c := canonical_of_unpacked hr
  have few : k < 53 := (Nat.pow_lt_pow_iff_right (by decide)).mp c.bits
  have many : 52 ≤ k := by
    rcases c.full with full | least
    · exact (Nat.pow_le_pow_iff_right (by decide)).mp full
    · omega
  obtain rfl : k = 52 := by omega
  exact eq_of_unpacked (hr.trans unpacked_one.symm)

theorem trim_cases (usable : 0.0 ≤ t.width) (value : Float) :
    unpacked (trim t value) = .notANumber ∨ Settled t (trim t value) := by
  unfold trim
  simp only
  split
  · exact Or.inr (Or.inl rfl)
  · next inside =>
    obtain ⟨far, large⟩ := Bool.or_eq_false_iff.mp (Bool.eq_false_iff.mpr inside)
    rcases fraction_cases value with nan | zero | ⟨m, k, h, hx, c, hk, hm⟩
    · exact Or.inl nan
    · exact Or.inr (Or.inl (eq_of_unpacked (zero.trans unpacked_zero.symm)))
    · obtain ⟨k, rfl⟩ := Nat.exists_eq_add_one.mpr hk
      refine Or.inr (Or.inr ⟨m, k, h, hx, Nat.lt_of_le_of_ne hm fun one => ?_, far, large⟩)
      subst one
      have same := eq_one hx
      have near : t.close (value - Numeric.floor value) 1.0 = true := by
        rw [same]
        exact Tolerance.close_of_sub_zero usable rfl
      exact absurd near (Bool.eq_false_iff.mp far)

theorem trim_of_not_finite {value : Float} (h : value.isFinite = false) :
    unpacked (trim t value) = .notANumber := by
  have rest := fraction_nan h
  unfold trim
  simp only
  split
  · next boundary =>
    rcases Bool.or_eq_true_iff.mp boundary with near | small
    · exact absurd rest (Tolerance.not_nan_of_close near).1
    · exact absurd (of_decide_eq_true small) (not_nan_le (abs_nan rest))
  · exact rest

theorem trim_nan {value : Float} (h : unpacked value = .notANumber) :
    unpacked (trim t value) = .notANumber := by
  refine trim_of_not_finite ?_
  change (unpacked value).isFinite = false
  rw [h]
  rfl

theorem sub_settled (h : Settled t r) : r - r = 0.0 := by
  rcases h with rfl | ⟨_, _, _, hr, _⟩
  · rfl
  · exact sub_self hr

section Whole

theorem floor_zero : Numeric.floor 0.0 = 0.0 := rfl

theorem floor_minus_one : Numeric.floor (-1.0) = -1.0 := by
  have whole : unpacked (-1.0) = .finite .negative (2 ^ 52) (.negSucc 51) (by decide) := by
    rw [unpacked_neg, unpacked_one]
    exact unpack_pack canonical_one
  have count : (2 ^ 52 + 2 ^ (51 + 1) - 1) / 2 ^ (51 + 1) = 1 := by decide
  rw [floor_negative whole, count]
  rfl

theorem toInt32_zero : Numeric.toInt32 0.0 = 0 := rfl

theorem ofInt32_zero : Numeric.ofInt32 0 = 0.0 := rfl

theorem zero_add_one : (0.0 : Float) + 1.0 = 1.0 := rfl

@[simp] theorem trim_zero : trim t 0.0 = 0.0 := by
  unfold trim
  rw [floor_zero, show (0.0 : Float) - 0.0 = 0.0 from rfl]
  simp

@[simp] theorem trim_minus_one : trim t (-1.0) = 0.0 := by
  unfold trim
  rw [floor_minus_one, show (-1.0 : Float) - -1.0 = 0.0 from rfl]
  simp

end Whole

theorem floor_settled (h : Settled t r) : Numeric.floor r = 0.0 := by
  rcases h with rfl | ⟨m, k, _, hr, below, _⟩
  · exact floor_zero
  · rw [floor_positive hr, Nat.div_eq_of_lt below, ofNat_zero]

theorem settled_sub_zero (h : Settled t r) : r - 0.0 = r := by
  rcases h with rfl | ⟨_, _, _, hr, _⟩
  · rfl
  · exact sub_zero hr

theorem settled_add_zero (h : Settled t r) : r + 0.0 = r := by
  rcases h with rfl | ⟨_, _, _, hr, _⟩
  · rfl
  · exact add_zero hr

theorem trim_of_settled (h : Settled t r) : trim t r = r := by
  rcases h with rfl | inner
  · exact trim_zero
  · have settled : Settled t r := Or.inr inner
    obtain ⟨_, _, _, _, _, far, large⟩ := inner
    unfold trim
    simp only [floor_settled settled, settled_sub_zero settled, far, large]
    rfl

theorem cell_settled (h : Settled t r) :
    cell t r = 0 ∨ cell t r = 1 ∧ r = 0.0 ∧ t.close 0.0 1.0 = true := by
  unfold cell
  rw [floor_settled h, zero_add_one, toInt32_zero]
  split
  · next near =>
    rcases h with rfl | ⟨_, _, _, _, _, far, _⟩
    · exact Or.inr ⟨rfl, rfl, near⟩
    · exact absurd near (Bool.eq_false_iff.mp far)
  · exact Or.inl rfl

theorem inner_settled (h : Settled t r) : inner t r = r := by
  unfold inner
  rcases cell_settled h with origin | ⟨next, rfl, _⟩
  · rw [origin, ofInt32_zero, settled_sub_zero h, trim_of_settled h]
  · rw [next, show (0.0 : Float) - Numeric.ofInt32 1 = -1.0 from rfl, trim_minus_one]

theorem settled_of_wide (wide : t.close 0.0 1.0 = true) (h : Settled t r) : r = 0.0 := by
  rcases h with rfl | ⟨m, k, _, hr, below, _, large⟩
  · rfl
  · have wider : 1.0 ≤ t.width := by
      have near := Tolerance.close_iff.mp wide
      rwa [show ((0.0 : Float) - 1.0).abs = 1.0 from rfl] at near
    have small : t.isZero r = true := by
      unfold Tolerance.isZero
      rw [abs_positive hr]
      exact decide_eq_true (below_one_le hr below wider)
    exact absurd small (Bool.eq_false_iff.mp large)

theorem cell_eq_of_settled (hr : Settled t r) (hr' : Settled t r') : cell t r = cell t r' := by
  rcases cell_settled hr with origin | ⟨_, rfl, wide⟩
  · rcases cell_settled hr' with origin' | ⟨_, rfl, wide⟩
    · rw [origin, origin']
    · rw [settled_of_wide wide hr]
  · rw [settled_of_wide wide hr']

theorem inner_moved (hr : Settled t r) (hr' : Settled t r') :
    inner t (r' + Numeric.ofInt32 (-cell t r)) = r' := by
  rcases cell_settled hr with origin | ⟨next, _, wide⟩
  · rw [origin, show Numeric.ofInt32 (-0) = 0.0 from rfl, settled_add_zero hr']
    exact inner_settled hr'
  · obtain rfl := settled_of_wide wide hr'
    have near : t.close (-1.0) 0.0 = true := by
      have near := Tolerance.close_iff.mp wide
      rw [Tolerance.close_iff, show ((-1.0 : Float) - 0.0).abs = 1.0 from rfl]
      rwa [show ((0.0 : Float) - 1.0).abs = 1.0 from rfl] at near
    have origin : cell t (-1.0) = 0 := by
      unfold cell
      rw [floor_minus_one, show (-1.0 : Float) + 1.0 = 0.0 from rfl, near]
      rfl
    rw [next, show (0.0 : Float) + Numeric.ofInt32 (-1) = -1.0 from rfl, inner, origin,
      ofInt32_zero, show (-1.0 : Float) - 0.0 = -1.0 from rfl, trim_minus_one]

end Fractional

end CrystalModel
