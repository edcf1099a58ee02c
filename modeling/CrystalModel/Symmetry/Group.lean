import CrystalModel.Symmetry.Literal

/-! # Space groups -/
namespace CrystalModel

structure SpaceGroup where
  index : Nat
  name : String
  operations : List Operation
deriving DecidableEq, Repr

namespace SpaceGroup

/-- There is an operation, one is the identity, and every rotation keeps volumes. -/
def ofOperations (t : Tolerance) (index : Nat) (name : String) (operations : List Operation) :
    Except SymmetryError SpaceGroup :=
  if operations.isEmpty then .error (.emptyGroup name)
  else if !operations.any (·.isIdentity t) then .error (.missingIdentity name)
  else match operations.find? (fun op => !t.close op.determinant.abs 1.0) with
    | some op => .error (.invalidRotation op.literal op.determinant)
    | none => .ok ⟨index, name, operations⟩

def ofLiterals (t : Tolerance) (index : Nat) (name : String) (literals : List String) :
    Except SymmetryError SpaceGroup := do
  ofOperations t index name (← literals.mapM Operation.parse)

end SpaceGroup

/-- A space group at work, with the tolerance that its images are told apart by. -/
structure Symmetry where
  group : SpaceGroup
  tolerance : Tolerance
deriving DecidableEq, Repr

end CrystalModel
