import CrystalModel.Geometry.Crystal
import CrystalModel.Reference.Simulation
import CrystalModel.Rule.Basic

/-! # Transition models

What symmetry makes of the authored transitions: the paths on which each one runs, and the
rules it follows there. Models, mappings and rules are numbered in the order in which they are
built, and refer to each other by these numbers. -/
namespace CrystalModel

/-- The path seen from its other end, moved so that it starts in the origin cell. -/
def turnedPath (path : List CrystalVector) : List CrystalVector :=
  match path.getLast? with
  | none => []
  | some last => path.reverse.map (·.shifted (-last.cell))

def startPosition (path : List CrystalVector) : Nat := (path.head?.map (·.p.toInt.toNat)).getD 0

/-- A path that a transition runs on. The movement lists, for each path position, how far the
particle there is carried in space. -/
structure Mapping where
  modelId : Nat
  transition : Nat
  path : List CrystalVector
  fractional : List Point
  movement : List Point
  inverse : Nat
deriving DecidableEq, Repr

namespace Mapping

def start (m : Mapping) : Nat := startPosition m.path

/-- How far all particles are carried together. -/
def globalMovement (m : Mapping) : Point := Point.sum m.movement

end Mapping

/-- A rule at work. The field factor is the charge that it transports along the path, in
elementary charges per path length. -/
structure LinkedRule where
  transition : Nat
  rule : Rule
  frequency : Float
  fieldFactor : Float
  inverse : Option Nat
deriving DecidableEq, Repr

namespace LinkedRule

def startCode (r : LinkedRule) : Int64 := stateCode r.rule.start

def transitionCode (r : LinkedRule) : Int64 := stateCode r.rule.transition

def finalCode (r : LinkedRule) : Int64 := stateCode r.rule.final

end LinkedRule

/-- The models of one kind carry the ids from zero on: those of the authored transitions first,
then the appended ones that run their paths backwards. Bit `i` of the mask tells that particle
`i` can start the transition on the first path position. -/
structure LinkedTransition where
  modelId : Nat
  kind : SimulationKind
  reference : Nat
  abstractTransition : Nat
  isInverse : Bool
  inverse : Nat
  frequency : Float
  mobileMask : UInt64
  mappings : List Nat
  rules : List Nat
deriving DecidableEq, Repr

structure TransitionNetwork where
  transitions : List LinkedTransition
  mappings : List Mapping
  rules : List LinkedRule
deriving DecidableEq, Repr

namespace TransitionNetwork

def ofKind (c : TransitionNetwork) (kind : SimulationKind) : List Nat :=
  c.transitions.zipIdx.filterMap fun (t, number) => if t.kind = kind then some number else none

def versionsOf (c : TransitionNetwork) (kind : SimulationKind) (reference : Nat) : List Nat :=
  c.transitions.zipIdx.filterMap fun (t, number) =>
    if t.kind = kind ∧ t.reference = reference then some number else none

end TransitionNetwork

end CrystalModel
