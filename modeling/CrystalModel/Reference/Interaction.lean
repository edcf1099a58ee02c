import CrystalModel.Geometry.Vector
import CrystalModel.Reference.Particle

/-! # Interactions

Energies between a center and one partner, and between a center and a cluster of partners. -/
namespace CrystalModel

/-- Whether an energy belongs to both orders of its two particles. -/
inductive PairKind where
  | symmetric
  | asymmetric
deriving DecidableEq, Repr

structure PairEnergy where
  center : Nat
  partner : Nat
  energy : Float
deriving DecidableEq, Repr

def PairEnergy.mentions (e : PairEnergy) (particle : Nat) : Bool :=
  e.center == particle || e.partner == particle

structure PairInteraction where
  index : Nat
  site0 : Nat
  site1 : Nat
  position0 : Point
  position1 : Point
  kind : PairKind
  energies : List PairEnergy
  state : Lifecycle
deriving DecidableEq, Repr

namespace PairInteraction

def isActive (i : PairInteraction) : Bool := i.state == .active

def mentions (i : PairInteraction) (site : Nat) : Bool := i.site0 == site || i.site1 == site

end PairInteraction

/-- The occupation lists the partners in the order of the geometry. -/
structure GroupEnergy where
  center : Nat
  occupation : List Nat
  energy : Float
deriving DecidableEq, Repr

def GroupEnergy.mentions (e : GroupEnergy) (particle : Nat) : Bool :=
  e.center == particle || e.occupation.contains particle

structure GroupInteraction where
  index : Nat
  centerSite : Nat
  geometry : List Point
  energies : List GroupEnergy
  state : Lifecycle
deriving DecidableEq, Repr

def GroupInteraction.isActive (i : GroupInteraction) : Bool := i.state == .active

end CrystalModel
