import CrystalModel.Geometry.Vector
import CrystalModel.Reference.Particle

/-! # Sites

Positions of the asymmetric unit, and the space group as it is authored. -/
namespace CrystalModel

/-- An unstable site is occupied only while a jump passes through it. -/
inductive Stability where
  | stable
  | unstable
deriving DecidableEq, Repr

structure Site where
  index : Nat
  name : String
  vector : Point
  occupation : Nat
  stability : Stability
  state : Lifecycle
deriving DecidableEq, Repr

namespace Site

def isActive (s : Site) : Bool := s.state == .active

def isStable (s : Site) : Bool := s.stability == .stable

end Site

structure GroupEntry where
  index : Nat
  name : String
  operations : List String
deriving DecidableEq, Repr

def GroupEntry.trivial : GroupEntry := ⟨1, "P1", ["x,y,z"]⟩

end CrystalModel
