import CrystalModel.Geometry.Vector

/-! # Crystal vectors

Integer coordinates of a lattice position: its unit cell and its number inside the cell.
Arithmetic is that of 32-bit words. -/
namespace CrystalModel

structure CrystalVector where
  a : Int32
  b : Int32
  c : Int32
  p : Int32
deriving DecidableEq, Repr

namespace CrystalVector

def cell (v : CrystalVector) : CellOffset := ⟨v.a, v.b, v.c⟩

def shifted (v : CrystalVector) (offset : CellOffset) : CrystalVector :=
  ⟨v.a + offset.x, v.b + offset.y, v.c + offset.z, v.p⟩

def toList (v : CrystalVector) : List Int32 := [v.a, v.b, v.c, v.p]

instance : Add CrystalVector := ⟨fun v w => ⟨v.a + w.a, v.b + w.b, v.c + w.c, v.p + w.p⟩⟩

instance : Sub CrystalVector := ⟨fun v w => ⟨v.a - w.a, v.b - w.b, v.c - w.c, v.p - w.p⟩⟩

def compareWords (a b : Int32) : Ordering := compare a.toInt b.toInt

/-- Cells come first, positions inside a cell last. -/
instance : Ord CrystalVector where
  compare v w :=
    ((compareWords v.a w.a).then (compareWords v.b w.b)).then
      ((compareWords v.c w.c).then (compareWords v.p w.p))

end CrystalVector

end CrystalModel
