import CrystalModel.Proofs.Geometry.Fractional

/-! # Codes of the positions of a cell

A position is encoded as itself, and keeps its number when it is moved by the cell of another
position. -/
namespace CrystalModel

open Double Fractional

variable {t : Tolerance} {a b v w : Point}

theorem Tolerance.closePoints_iff : t.closePoints a b = true ↔
    t.close a.x b.x = true ∧ t.close a.y b.y = true ∧ t.close a.z b.z = true := by
  simp only [closePoints, comparePoints, close, beq_iff_eq, Ordering.then_eq_eq, and_assoc]

structure SettledPoint (t : Tolerance) (v : Point) : Prop where
  x : Settled t v.x
  y : Settled t v.y
  z : Settled t v.z

theorem SettledPoint.stays (h : SettledPoint t v) : innerPoint t v = v := by
  rw [innerPoint_eq, inner_settled h.x, inner_settled h.y, inner_settled h.z]

theorem SettledPoint.moved (hv : SettledPoint t v) (hw : SettledPoint t w) :
    innerPoint t (w + ofOffset (-cellOf t v)) = w := by
  have moved : innerPoint t (w + ofOffset (-cellOf t v)) =
      ⟨inner t (w.x + Numeric.ofInt32 (-cell t v.x)), inner t (w.y + Numeric.ofInt32 (-cell t v.y)),
        inner t (w.z + Numeric.ofInt32 (-cell t v.z))⟩ := by
    simp only [innerPoint_eq, point_add, ofOffset, offset_neg, cellOf, Vec3.map]
  rw [moved, inner_moved hv.x hw.x, inner_moved hv.y hw.y, inner_moved hv.z hw.z]

theorem SettledPoint.cellOf_eq (hv : SettledPoint t v) (hw : SettledPoint t w) :
    cellOf t v = cellOf t w := by
  unfold cellOf Vec3.map
  rw [cell_eq_of_settled hv.x hw.x, cell_eq_of_settled hv.y hw.y, cell_eq_of_settled hv.z hw.z]

theorem SettledPoint.close (usable : 0.0 ≤ t.width) (h : SettledPoint t v) :
    t.closePoints v v = true :=
  Tolerance.closePoints_iff.mpr ⟨Tolerance.close_of_sub_zero usable (sub_settled h.x),
    Tolerance.close_of_sub_zero usable (sub_settled h.y),
    Tolerance.close_of_sub_zero usable (sub_settled h.z)⟩

namespace Encoder

variable {e : Encoder} {code : CrystalVector}

theorem close_of_encode (h : e.encode v = some code) :
    ∃ u, e.tolerance.closePoints u (innerPoint e.tolerance v) = true := by
  obtain ⟨place, found, _⟩ := encode_eq_some.mp h
  obtain ⟨inside, near, _⟩ := List.findIdx?_eq_some_iff_getElem.mp found
  exact ⟨e.positions[place], near⟩

theorem usable_of_encode (h : e.encode v = some code) : 0.0 ≤ e.tolerance.width := by
  obtain ⟨_, near⟩ := close_of_encode h
  exact zero_le_of_abs_le (Tolerance.close_iff.mp (Tolerance.closePoints_iff.mp near).1)

theorem settled_of_encode (fit : Fit e) (hv : v ∈ e.positions) (h : e.encode v = some code) :
    SettledPoint e.tolerance v := by
  obtain ⟨_, near⟩ := close_of_encode h
  rw [innerPoint_eq] at near
  obtain ⟨x, y, z⟩ := Tolerance.closePoints_iff.mp near
  obtain ⟨u, rfl⟩ := fit.trimmed v hv
  have settled : ∀ {value other : Float},
      e.tolerance.close other (inner e.tolerance (trim e.tolerance value)) = true →
      Settled e.tolerance (trim e.tolerance value) := by
    intro value other near
    refine (trim_cases (usable_of_encode h) value).resolve_left fun nan => ?_
    exact (Tolerance.not_nan_of_close near).2 (trim_nan (sub_nan (Or.inl nan)))
  exact ⟨settled x, settled y, settled z⟩

theorem placeOf_position (fit : Fit e) (usable : 0.0 ≤ e.tolerance.width) {p place : Nat}
    (hv : e.positions[place]? = some v) (settled : SettledPoint e.tolerance v)
    (h : e.tolerance.placeOf e.positions v = some p) : p = place := by
  obtain ⟨inside, rfl⟩ := List.getElem?_eq_some_iff.mp hv
  obtain ⟨among, near, first⟩ := List.findIdx?_eq_some_iff_getElem.mp h
  rcases Nat.lt_trichotomy p place with before | same | behind
  · have far := List.pairwise_iff_getElem.mp fit.apart p place among inside before
    exact absurd near (Bool.eq_false_iff.mp far)
  · exact same
  · exact absurd (settled.close usable) (first place behind)

theorem encode_position (fit : Fit e) {place : Nat} (hv : e.positions[place]? = some v)
    (h : e.encode v = some code) : code.p = Int32.ofNat place := by
  have settled := settled_of_encode fit (List.mem_of_getElem? hv) h
  obtain ⟨p, found, rfl⟩ := encode_eq_some.mp h
  rw [settled.stays] at found
  rw [placeOf_position fit (usable_of_encode h) hv settled found]

theorem code_eq (fit : Fit e) {first second : CrystalVector} (hv : v ∈ e.positions)
    (hw : w ∈ e.positions) (hfirst : e.encode v = some first) (hsecond : e.encode w = some second)
    (number : first.p = second.p) : first = second := by
  have cells := (settled_of_encode fit hv hfirst).cellOf_eq (settled_of_encode fit hw hsecond)
  obtain ⟨p, _, rfl⟩ := encode_eq_some.mp hfirst
  obtain ⟨q, _, rfl⟩ := encode_eq_some.mp hsecond
  simp only at number
  rw [cells, number]

/-- The number of a position does not change with the cell that another position lies in. -/
theorem encode_moved (fit : Fit e) {i j : Nat} {first second : CrystalVector}
    (hv : e.positions[i]? = some v) (hw : e.positions[j]? = some w)
    (hfirst : e.encode v = some first) (hsecond : e.encode w = some second)
    (h : e.encode (w + ofOffset (-first.cell)) = some code) : code.p = Int32.ofNat j := by
  have settledFirst := settled_of_encode fit (List.mem_of_getElem? hv) hfirst
  have settledSecond := settled_of_encode fit (List.mem_of_getElem? hw) hsecond
  obtain ⟨_, _, cell, _⟩ := encode_some hfirst
  obtain ⟨p, found, rfl⟩ := encode_eq_some.mp h
  rw [cell, settledFirst.moved settledSecond] at found
  rw [placeOf_position fit (usable_of_encode h) hw settledSecond found]

end Encoder

end CrystalModel
