import CrystalModel.Proofs.Geometry.Boundary
import CrystalModel.Proofs.Numeric.Product
import CrystalModel.Proofs.Symmetry.Projection
import CrystalModel.Reference.Data

/-! # Points that an identity keeps in place

An operation passes for the identity when no factor and no shift is off by more than a tolerance.
What it makes of a point is off by all of them together. So the points of a cell stay in place under
an identity to a fourth of the tolerance, and need not under an identity to the tolerance itself. -/
namespace CrystalModel

open Double

namespace Tolerance

variable {t w : Tolerance} {a c : Float}

theorem tracks_of_isZero (width : w.width.isFinite = true) (h : w.isZero a = true) :
    Tracks a 0 (value w.width) := by
  have finite := isFinite_of_abs_le width (of_decide_eq_true h)
  exact Tracks.zero_iff.mpr ⟨finite, (isZero_value width finite).mp h⟩

theorem tracks_of_near (width : w.width.isFinite = true) (small : value w.width ≤ 1 / 4)
    (hc : c.isFinite = true) (plain : value c = 0 ∨ value c = 1) (h : w.isZero (a - c) = true) :
    Tracks a (value c) (value w.width) := by
  obtain ⟨rest, near⟩ := Tracks.zero_iff.mp (tracks_of_isZero width h)
  have finite := isFinite_of_sub hc rest
  have rounds := sub_rounds_of_finite finite hc rest
  refine ⟨finite, ?_⟩
  suffices short : Short (value a - value c) from rounds.eq_of_short short ▸ near
  rcases plain with zero | one
  · rw [zero, show value a - 0 = value a by ring]
    exact .value a
  · rw [one] at rounds ⊢
    obtain ⟨low, high⟩ := abs_le.mp near
    have half : Short (1 / 2) := ⟨1, -1, by norm_num, by decide⟩
    have below : value a - 1 < 1 / 2 := by
      refine lt_of_not_ge fun far => ?_
      linarith [rounds.ge_of_ge half far]
    have above : -(1 / 2) < value a - 1 := by
      refine lt_of_not_ge fun far => ?_
      linarith [rounds.le_of_le half.neg far]
    have size : (2 : ℚ) ^ (-1 : ℤ) ≤ |value a| := by
      refine le_trans ?_ (le_abs_self _)
      norm_num
      linarith
    have whole := short_sub_int (n := 1) finite size (by decide) (by
      rw [abs_le]
      norm_num
      constructor <;> linarith)
    rwa [Int.cast_one] at whole

theorem isZero_rest {b : ℚ} (width : t.width.isFinite = true) (ha : Tracks a 0 b)
    (within : b ≤ value t.width) : t.isZero (a - Numeric.nearest a) = true := by
  obtain ⟨finite, near⟩ := Tracks.zero_iff.mp ha
  obtain ⟨rest, less⟩ := rest_le finite
  exact (isZero_value width rest).mpr (less.trans (near.trans within))

/-- Whoever is within one tolerance four times over is within the other one, also when each of the
steps in between is rounded. An error of nothing is not rounded. -/
structure Absorbs (t w : Tolerance) : Prop where
  width : t.width.isFinite = true
  part : w.width.isFinite = true
  fourfold : value w.width = 0 ∧ 0 ≤ value t.width ∨
    value w.width ≤ 1 / 4 ∧ 4 * value w.width + 1 / 2 ^ 47 ≤ value t.width

theorem absorbs_zero {width : Float} (finite : width.isFinite = true) :
    (ofWidth width).Absorbs (ofWidth 0.0) := by
  refine ⟨(isFinite_abs width).trans finite, isFinite_zero, Or.inl ⟨value_zero, ?_⟩⟩
  rw [ofWidth, value_abs]
  exact abs_nonneg _

theorem Absorbs.small (absorbs : t.Absorbs w) : value w.width ≤ 1 / 4 := by
  rcases absorbs.fourfold with ⟨strict, _⟩ | ⟨small, _⟩
  · rw [strict]
    norm_num
  · exact small

end Tolerance

/-- A factor of one, and two of zero. -/
def Selects (α β γ : ℚ) : Prop :=
  (α = 1 ∧ β = 0 ∧ γ = 0) ∨ (α = 0 ∧ β = 1 ∧ γ = 0) ∨ (α = 0 ∧ β = 0 ∧ γ = 1)

namespace Point

structure Inside (v : Point) : Prop where
  x : Portion v.x
  y : Portion v.y
  z : Portion v.z

variable {r v : Point} {b p : Float} {α β γ u : ℚ}

/-- What an approximate row makes of a point is off by all errors together, each weighted by its
coordinate, and by six roundings. -/
theorem dot_tracks (hv : v.Inside) (selects : Selects α β γ) (hx : Tracks r.x α u)
    (hy : Tracks r.y β u) (hz : Tracks r.z γ u) (hb : Tracks b 0 u) (hu : 0 ≤ u) (few : u ≤ 1 / 4) :
    Tracks (r.dot v + b) (α * value v.x + β * value v.y + γ * value v.z + 0)
      (4 * u + 6 * roundoff) := by
  have unit : roundoff = 4 / 2 ^ 52 := rfl
  have x0 := hv.x.low
  have y0 := hv.y.low
  have z0 := hv.z.low
  have x1 := hv.x.high
  have y1 := hv.y.high
  have z1 := hv.z.high
  have share : ∀ {c : ℚ}, c ≤ 1 → u * c ≤ u := fun most => mul_le_of_le_one_right hu most
  have ux := share x1
  have uy := share y1
  have uz := share z1
  have factor : ∀ {c : ℚ}, c = 0 ∨ c = 1 → |c| + u ≤ 4 := by
    rintro c (rfl | rfl) <;> norm_num <;> linarith
  have size : ∀ {c : ℚ}, 0 ≤ c → c ≤ 1 → |c| ≤ 1 := by
    intro c low high
    rwa [abs_of_nonneg low]
  refine Tracks.mono (d := u * value v.x + roundoff + (u * value v.y + roundoff) + roundoff +
    (u * value v.z + roundoff) + roundoff + u + roundoff) ?_ (by linarith)
  rcases selects with ⟨rfl, rfl, rfl⟩ | ⟨rfl, rfl, rfl⟩ | ⟨rfl, rfl, rfl⟩
  all_goals
    refine (((hx.mul hv.x (factor (by simp))).add (hy.mul hv.y (factor (by simp))) ?_).add
      (hz.mul hv.z (factor (by simp))) ?_).add hb ?_
    all_goals
      refine (add_le_add_left (size ?_ ?_) _).trans ?_
      all_goals linarith

theorem dot_exact (hv : v.Inside) (selects : Selects α β γ) (hx : Tracks r.x α 0)
    (hy : Tracks r.y β 0) (hz : Tracks r.z γ 0) (hb : Tracks b 0 0) :
    Tracks (r.dot v + b) (α * value v.x + β * value v.y + γ * value v.z + 0) 0 := by
  have size : ∀ {p : Float}, Portion p → |value p| ≤ 4 := by
    intro p hp
    rw [abs_of_nonneg hp.low]
    linarith [hp.high]
  have x := size hv.x
  have y := size hv.y
  have z := size hv.z
  rcases selects with ⟨rfl, rfl, rfl⟩ | ⟨rfl, rfl, rfl⟩ | ⟨rfl, rfl, rfl⟩
  all_goals
    refine (((hx.mul_exact (by simp) hv.x.finite).add_exact
      (hy.mul_exact (by simp) hv.y.finite) ?_ ?_).add_exact
      (hz.mul_exact (by simp) hv.z.finite) ?_ ?_).add_exact hb ?_ ?_
    all_goals simp [Short.zero, Short.value, x, y, z]

theorem plain_of_row {e : Point} (row : e ∈ Mat3.identity.rows) :
    (e.x = 0.0 ∨ e.x = 1.0) ∧ (e.y = 0.0 ∨ e.y = 1.0) ∧ (e.z = 0.0 ∨ e.z = 1.0) ∧
      Selects (value e.x) (value e.y) (value e.z) := by
  simp only [Mat3.rows, Mat3.identity, List.mem_cons, List.not_mem_nil, or_false] at row
  rcases row with rfl | rfl | rfl
  · exact ⟨Or.inr rfl, Or.inl rfl, Or.inl rfl, Or.inl ⟨value_one, value_zero, value_zero⟩⟩
  · exact ⟨Or.inl rfl, Or.inr rfl, Or.inl rfl, Or.inr (Or.inl ⟨value_zero, value_one, value_zero⟩)⟩
  · exact ⟨Or.inl rfl, Or.inl rfl, Or.inr rfl, Or.inr (Or.inr ⟨value_zero, value_zero, value_one⟩)⟩

theorem isZero_moved {t w : Tolerance} {e : Point} (absorbs : t.Absorbs w) (hv : v.Inside)
    (row : e ∈ Mat3.identity.rows) (near : w.isZeroPoint (r - e) = true)
    (shift : w.isZero b = true) (hp : Portion p)
    (picks : value e.x * value v.x + value e.y * value v.y + value e.z * value v.z = value p) :
    t.isZero (p - (r.dot v + b) - Numeric.nearest (p - (r.dot v + b))) = true := by
  have entry : ∀ {a c : Float}, c = 0.0 ∨ c = 1.0 → w.isZero (a - c) = true →
      Tracks a (value c) (value w.width) := by
    rintro a c (rfl | rfl) small
    · exact Tolerance.tracks_of_near absorbs.part absorbs.small isFinite_zero
        (Or.inl value_zero) small
    · exact Tolerance.tracks_of_near absorbs.part absorbs.small isFinite_one
        (Or.inr value_one) small
  obtain ⟨plainX, plainY, plainZ, selects⟩ := plain_of_row row
  simp only [Tolerance.isZeroPoint, Vec3.all, Bool.and_eq_true] at near
  obtain ⟨⟨nearX, nearY⟩, nearZ⟩ := near
  have hx := entry plainX nearX
  have hy := entry plainY nearY
  have hz := entry plainZ nearZ
  have hb := Tolerance.tracks_of_isZero absorbs.part shift
  have same : value p - (value e.x * value v.x + value e.y * value v.y + value e.z * value v.z + 0)
      = 0 := by
    rw [picks]
    ring
  rcases absorbs.fourfold with ⟨strict, usable⟩ | ⟨small, wide⟩
  · rw [strict] at hx hy hz hb
    have moved := (Tracks.refl hp.finite).sub_exact (dot_exact hv selects hx hy hz hb)
      (by rw [same]; norm_num) (by rw [same]; exact .zero)
    rw [same] at moved
    exact Tolerance.isZero_rest absorbs.width moved usable
  · have unit : roundoff = 4 / 2 ^ 52 := rfl
    have positive : 0 ≤ value w.width := (abs_nonneg _).trans hb.2
    have moved := (Tracks.refl hp.finite).sub
      (dot_tracks hv selects hx hy hz hb positive small) (by rw [same, abs_zero]; linarith)
    rw [same] at moved
    exact Tolerance.isZero_rest absorbs.width moved (by linarith)

end Point

namespace Fractional

variable {t : Tolerance} {v : Point}

theorem trim_portion {x : Float} (hx : x.isFinite = true) : Portion (trim t x) := by
  unfold trim
  simp only
  split
  · exact ⟨isFinite_zero, value_zero.ge, value_zero.trans_le zero_le_one⟩
  · exact ⟨(fraction_rounds hx).1, (fraction_bounds hx).1, (fraction_bounds hx).2⟩

theorem trimPoint_inside (hv : v.all (·.isFinite) = true) : (trimPoint t v).Inside := by
  simp only [Vec3.all, Bool.and_eq_true] at hv
  obtain ⟨⟨x, y⟩, z⟩ := hv
  exact ⟨trim_portion x, trim_portion y, trim_portion z⟩

end Fractional

namespace Symmetry

variable {s : Symmetry} {op : Operation} {w : Tolerance} {v : Point}

/-- An identity to a fourth of the tolerance keeps every point of the cell in place. -/
theorem keeps_of_isIdentity (absorbs : s.tolerance.Absorbs w) (identity : op.isIdentity w = true)
    (hv : v.Inside) : s.Keeps v op (Fractional.latticeVector (v - op.apply v)) := by
  simp only [Operation.isIdentity, Bool.and_eq_true, List.all_eq_true] at identity
  obtain ⟨rows, shift⟩ := identity
  simp only [Tolerance.isZeroPoint, Vec3.all, Bool.and_eq_true] at shift
  obtain ⟨⟨shiftX, shiftY⟩, shiftZ⟩ := shift
  have stays : ∀ {r e : Point} {b p : Float}, (r, e) ∈ op.rotation.rows.zip Mat3.identity.rows →
      w.isZero b = true → Portion p →
      value e.x * value v.x + value e.y * value v.y + value e.z * value v.z = value p →
      s.tolerance.isZero (p - (r.dot v + b) - Numeric.nearest (p - (r.dot v + b))) = true := by
    intro r e b p pair small hp picks
    have near : w.isZeroPoint (r - e) = true := rows (r, e) pair
    have row : e ∈ Mat3.identity.rows := (List.of_mem_zip pair).2
    exact Point.isZero_moved absorbs hv row near small hp picks
  have x := stays (r := op.rotation.row1) (e := Mat3.identity.row1) (by simp [Mat3.rows])
    shiftX hv.x (by simp [Mat3.identity])
  have y := stays (r := op.rotation.row2) (e := Mat3.identity.row2) (by simp [Mat3.rows])
    shiftY hv.y (by simp [Mat3.identity])
  have z := stays (r := op.rotation.row3) (e := Mat3.identity.row3) (by simp [Mat3.rows])
    shiftZ hv.z (by simp [Mat3.identity])
  refine ⟨rfl, ?_⟩
  rw [Tolerance.isZeroPoint, Vec3.all, Bool.and_eq_true, Bool.and_eq_true]
  exact ⟨⟨x, y⟩, z⟩

theorem finite_of_keeps {shift : Point} (keeps : s.Keeps v op shift) :
    unpacked v.x ≠ .notANumber ∧ unpacked v.y ≠ .notANumber ∧ unpacked v.z ≠ .notANumber := by
  have near := keeps.2
  rw [Tolerance.isZeroPoint, Vec3.all, Bool.and_eq_true, Bool.and_eq_true] at near
  obtain ⟨⟨x, y⟩, z⟩ := near
  have number : ∀ {p q r : Float}, s.tolerance.isZero (p - q - r) = true →
      unpacked p ≠ .notANumber := by
    intro p q r small nan
    exact not_nan_le (abs_nan (sub_nan (Or.inl (sub_nan (Or.inl nan))))) (of_decide_eq_true small)
  exact ⟨number x, number y, number z⟩

/-- Some operation is the identity to a fourth of the tolerance, less the rounding, or exactly. -/
def HasIdentity (s : Symmetry) : Prop :=
  ∃ w, s.tolerance.Absorbs w ∧ ∃ op ∈ s.group.operations, op.isIdentity w = true

/-- Where there is such an identity, the place of a site is kept unless one of its coordinates is no
finite number. -/
theorem HasIdentity.fixes_trimPoint_iff (h : s.HasIdentity) :
    s.Fixes (Fractional.trimPoint s.tolerance v) ↔ v.all (·.isFinite) = true := by
  obtain ⟨w, absorbs, op, hop, identity⟩ := h
  constructor
  · rintro ⟨_, _, _, keeps⟩
    obtain ⟨x, y, z⟩ := finite_of_keeps keeps
    have finite : ∀ {p : Float}, unpacked (Fractional.trim s.tolerance p) ≠ .notANumber →
        p.isFinite = true := fun number =>
      Bool.of_not_eq_false fun hp => number (Fractional.trim_of_not_finite hp)
    rw [Vec3.all, Bool.and_eq_true, Bool.and_eq_true]
    exact ⟨⟨finite x, finite y⟩, finite z⟩
  · intro finite
    exact ⟨op, hop, _, keeps_of_isIdentity absorbs identity (Fractional.trimPoint_inside finite)⟩

end Symmetry

/-- A group is accepted for an operation that is the identity to the tolerance itself. -/
theorem SpaceGroup.ofOperations_identity {t : Tolerance} {index : Nat} {name : String}
    {operations : List Operation} {g : SpaceGroup}
    (h : ofOperations t index name operations = .ok g) :
    ∃ op ∈ g.operations, op.isIdentity t = true := by
  unfold ofOperations at h
  split at h
  · cases h
  · split at h
    · cases h
    · next found =>
      split at h
      · cases h
      · cases h
        exact List.any_eq_true.mp (by simpa using found)

theorem ReferenceData.symmetry_identity {r : ReferenceData} {t : Tolerance} {s : Symmetry}
    (h : r.symmetry t = .ok s) : ∃ op ∈ s.group.operations, op.isIdentity s.tolerance = true := by
  obtain ⟨g, made, rfl⟩ := map_ok_iff.mp h
  obtain ⟨_, _, accepted⟩ := bind_ok_iff.mp made
  exact SpaceGroup.ofOperations_identity accepted

end CrystalModel
