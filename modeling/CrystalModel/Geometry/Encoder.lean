import CrystalModel.Geometry.Cell
import CrystalModel.Geometry.Crystal
import CrystalModel.Geometry.Fractional

/-! # Encoding of lattice positions

The way between fractional points and crystal vectors, by the list of positions in the
unit cell. -/
namespace CrystalModel

structure Encoder where
  positions : List Point
  cell : Cell
  tolerance : Tolerance
deriving DecidableEq, Repr

namespace Encoder

/-- None when the point is no lattice position. -/
def encode (e : Encoder) (v : Point) : Option CrystalVector :=
  let offset := Fractional.cellOf e.tolerance v
  let inner := Fractional.trimPoint e.tolerance (v - Fractional.ofOffset offset)
  (e.tolerance.placeOf e.positions inner).map fun p =>
    ⟨offset.x, offset.y, offset.z, Int32.ofNat p⟩

def encodeAll (e : Encoder) (path : List Point) : Option (List CrystalVector) :=
  path.mapM e.encode

/-- None when the cell has no position of that number. -/
def decode (e : Encoder) (v : CrystalVector) : Option Point :=
  if v.p < 0 then none
  else (e.positions[v.p.toInt.toNat]?).map (· + Fractional.ofOffset v.cell)

def decodeAll (e : Encoder) (path : List CrystalVector) : Option (List Point) :=
  path.mapM e.decode

end Encoder

end CrystalModel
