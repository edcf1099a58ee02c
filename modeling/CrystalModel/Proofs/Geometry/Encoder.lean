import CrystalModel.Geometry.Encoder

/-! # Codes of lattice positions

A code is made of the cell that a point lies in and of the first position close to its place
there. -/
namespace CrystalModel

variable {v : Point}

namespace Fractional

def inner (t : Tolerance) (value : Float) : Float :=
  trim t (value - Numeric.ofInt32 (cell t value))

def innerPoint (t : Tolerance) (v : Point) : Point := trimPoint t (v - ofOffset (cellOf t v))

theorem point_sub (v w : Point) : v - w = ⟨v.x - w.x, v.y - w.y, v.z - w.z⟩ := rfl

theorem point_add (v w : Point) : v + w = ⟨v.x + w.x, v.y + w.y, v.z + w.z⟩ := rfl

theorem offset_neg (c : CellOffset) : -c = ⟨-c.x, -c.y, -c.z⟩ := rfl

theorem innerPoint_eq (t : Tolerance) (v : Point) :
    innerPoint t v = ⟨inner t v.x, inner t v.y, inner t v.z⟩ := by
  unfold innerPoint trimPoint inner
  simp only [point_sub, ofOffset, cellOf, Vec3.map]

def Trimmed (t : Tolerance) (v : Point) : Prop := ∃ w, v = trimPoint t w

end Fractional

namespace Encoder

open Fractional

variable {e : Encoder} {code : CrystalVector}

theorem encode_eq_some : e.encode v = some code ↔
    ∃ place, e.tolerance.placeOf e.positions (innerPoint e.tolerance v) = some place ∧
      (⟨(cellOf e.tolerance v).x, (cellOf e.tolerance v).y, (cellOf e.tolerance v).z,
        Int32.ofNat place⟩ : CrystalVector) = code := by
  unfold encode
  exact Option.map_eq_some_iff

theorem encode_some (h : e.encode v = some code) : ∃ place < e.positions.length,
    code.cell = cellOf e.tolerance v ∧ code.p = Int32.ofNat place := by
  obtain ⟨place, found, rfl⟩ := encode_eq_some.mp h
  exact ⟨place, (List.findIdx?_eq_some_iff_getElem.mp found).1, rfl, rfl⟩

/-- The positions lie apart inside the origin cell. -/
structure Fit (e : Encoder) : Prop where
  apart : e.positions.Pairwise fun a b => e.tolerance.closePoints a b = false
  trimmed : ∀ v ∈ e.positions, Trimmed e.tolerance v

end Encoder

end CrystalModel
