import CrystalModel.Geometry.Vector
import CrystalModel.Reference.Simulation

/-! # Simulation models

Which jumps a simulation can make: its rules in collections, its paths as directions, and the
table that tells the directions open to every particle on every position. -/
namespace CrystalModel

/-- Whether a particle can start a jump, and whether it is also the one that is selected for
it. -/
inductive Mobility where
  | immobile
  | mobile
  | selectable
deriving DecidableEq, Repr

structure JumpCollection where
  id : Nat
  transition : Nat
  mask : UInt64
  rules : List Nat
deriving DecidableEq, Repr

structure PathLink where
  pathId : Nat
  linkId : Nat
deriving DecidableEq, Repr

structure JumpDirection where
  id : Nat
  collection : Nat
  mapping : Nat
  position : Nat
  projection : Float
  links : List PathLink
deriving DecidableEq, Repr

/-- The directions open to every particle on every position. The assignments hold `maxDirections`
places for each particle of each position, one after the other; unused places hold minus one. Bit
`i` of a mask tells that particle `i` is selectable. -/
structure JumpIndex where
  particleCount : Nat
  maxDirections : Nat
  counts : List (List Int32)
  assignments : List Int32
  mobilities : List (List Mobility)
  selectionMasks : List UInt64
deriving DecidableEq, Repr

/-- A simulation at work. The field is a direction in space, or zero. -/
structure SimulationModel where
  simulation : Nat
  name : String
  kind : SimulationKind
  seed : UInt64
  temperature : Float
  latticeSize : Vec3 Int32
  targetSteps : UInt64
  field : Point
  fieldMagnitude : Float
  transitions : List Nat
  collections : List JumpCollection
  directions : List JumpDirection
  index : JumpIndex
  maxFrequency : Float
deriving DecidableEq, Repr

end CrystalModel
