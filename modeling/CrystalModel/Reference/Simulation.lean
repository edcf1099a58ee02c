import CrystalModel.Geometry.Vector
import CrystalModel.Reference.Particle

/-! # Simulations -/
namespace CrystalModel

inductive SimulationKind where
  | kinetic
  | metropolis
deriving DecidableEq, Repr

structure Simulation where
  index : Nat
  name : String
  kind : SimulationKind
  transitions : List Nat
  electricField : Point
  fieldMagnitude : Float
  temperature : Float
  latticeSize : Vec3 Int32
  seed : Option UInt64
  targetSteps : UInt64
  state : Lifecycle
deriving DecidableEq, Repr

def Simulation.isActive (s : Simulation) : Bool := s.state == .active

end CrystalModel
