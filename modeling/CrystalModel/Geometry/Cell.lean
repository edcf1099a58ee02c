import CrystalModel.Geometry.Vector
import CrystalModel.Numeric.Notation
import CrystalModel.Numeric.Rounding
import CrystalModel.Text.Listing

/-! # Unit cells

Lattice constants of the unit cell, with lengths in Angstrom and angles in degrees. -/
namespace CrystalModel

/-- How precisely the sine and the cosine of a double are computed is up to the platform. All
definitions take them as they come. -/
class Trigonometry where
  sin : Float → Float
  cos : Float → Float

/-- The functions of the platform that a build runs on. -/
instance : Trigonometry := ⟨Float.sin, Float.cos⟩

structure Cell where
  a : Float
  b : Float
  c : Float
  alpha : Float
  beta : Float
  gamma : Float
deriving DecidableEq, Repr

namespace Cell

variable [Trigonometry]

def cubic (edge : Float) : Cell := ⟨edge, edge, edge, 90.0, 90.0, 90.0⟩

def unit : Cell := cubic 1.0

def radians (degrees : Float) : Float := degrees * (3.14159265358979323846 / 180.0)

def squaredVolume (cell : Cell) : Float :=
  let ca := Trigonometry.cos (radians cell.alpha)
  let cb := Trigonometry.cos (radians cell.beta)
  let cg := Trigonometry.cos (radians cell.gamma)
  1.0 - ca * ca - cb * cb - cg * cg + 2.0 * ca * cb * cg

/-- Positive finite edges, angles between 0 and 180 degrees, and a positive volume. -/
def isValid (cell : Cell) : Bool :=
  [cell.a, cell.b, cell.c].all (fun v => v.isFinite && v > 0.0) &&
    [cell.alpha, cell.beta, cell.gamma].all (fun v => v.isFinite && v > 0.0 && v < 180.0) &&
    cell.squaredVolume > 0.0

/-- The columns are the edges: `a` along x, `b` in the xy-plane. -/
def matrix (cell : Cell) : Mat3 :=
  let ca := Trigonometry.cos (radians cell.alpha)
  let cb := Trigonometry.cos (radians cell.beta)
  let cg := Trigonometry.cos (radians cell.gamma)
  let sg := Trigonometry.sin (radians cell.gamma)
  let cy := (ca - cb * cg) / sg
  let cz := (Numeric.greater (1.0 - cb * cb - cy * cy) 0.0).sqrt
  ⟨⟨cell.a, cell.b * cg, cell.c * cb⟩, ⟨0.0, cell.b * sg, cell.c * cy⟩,
    ⟨0.0, 0.0, cell.c * cz⟩⟩

def cartesian (cell : Cell) (v : Point) : Point := cell.matrix.mulVec v

def distance (cell : Cell) (start finish : Point) : Float :=
  (cell.cartesian (finish - start)).norm

end Cell

/-- A point is a matrix of one column, hence the double brackets. -/
def Point.text (p : Point) : String :=
  "[" ++ Text.bracketed (p.toList.map Numeric.pointed) ++ "]"

def Cell.text (c : Cell) : String :=
  let fields := [("a", c.a), ("b", c.b), ("c", c.c), ("alpha", c.alpha), ("beta", c.beta),
    ("gamma", c.gamma)]
  "CellParameters \x7b " ++
    Text.joined ", " (fields.map fun (name, value) => name ++ ": " ++ Numeric.pointed value) ++
    " \x7d"

end CrystalModel
