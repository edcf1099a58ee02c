import CrystalModel.Geometry.Closeness
import CrystalModel.Numeric.Rounding

/-! # Fractional coordinates

The split of a coordinate into the unit cell it lies in and its place inside that cell. Both
treat a coordinate within the tolerance of a cell boundary as lying on it. -/
namespace CrystalModel.Fractional

open Numeric

/-- The place inside the origin cell; places at either boundary become zero. -/
def trim (t : Tolerance) (value : Float) : Float :=
  let inner := value - floor value
  if t.close inner 1.0 || t.isZero inner then 0.0 else inner

def trimPoint (t : Tolerance) (v : Point) : Point := v.map (trim t)

/-- The cell a coordinate lies in; just below a boundary it is the next cell. -/
def cell (t : Tolerance) (value : Float) : Int32 :=
  if t.close value (floor value + 1.0) then toInt32 (floor value) + 1 else toInt32 (floor value)

def cellOf (t : Tolerance) (v : Point) : CellOffset := v.map (cell t)

def ofOffset (offset : CellOffset) : Point := offset.map ofInt32

def midpoint (a b : Point) : Point := (a + b).scale 0.5

/-- The lattice vector nearest to a displacement. -/
def latticeVector (v : Point) : Point := v.map nearest

end CrystalModel.Fractional
