import CrystalModel.Geometry.Fractional

/-! # Symmetry operations

Affine maps of fractional coordinates, each kept with the text it is known by. -/
namespace CrystalModel

/-- The map `v ↦ rotation * v + shift`. -/
structure Operation where
  literal : String
  rotation : Mat3
  shift : Point
deriving DecidableEq, Repr

namespace Operation

def determinant (op : Operation) : Float := op.rotation.determinant

def apply (op : Operation) (v : Point) : Point := op.rotation.mulVec v + op.shift

def applyInCell (op : Operation) (t : Tolerance) (v : Point) : Point :=
  Fractional.trimPoint t (op.apply v)

def applyAll (op : Operation) (path : List Point) : List Point := path.map op.apply

def isIdentity (op : Operation) (t : Tolerance) : Bool :=
  (op.rotation.rows.zip Mat3.identity.rows).all (fun (r, e) => t.isZeroPoint (r - e)) &&
    t.isZeroPoint op.shift

end Operation

end CrystalModel
