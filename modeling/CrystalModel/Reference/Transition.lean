import CrystalModel.Geometry.Vector
import CrystalModel.Reference.Particle

/-! # Transitions

Exchanges of particles along a path, first without and then with geometry. -/
namespace CrystalModel

/-- The two states of one path position. The donor of an unstable pair is there only in
flight. -/
structure ExchangePair where
  index : Nat
  donor : Nat
  acceptor : Nat
  unstable : Bool
  state : Lifecycle
deriving DecidableEq, Repr

def ExchangePair.isActive (p : ExchangePair) : Bool := p.state == .active

structure ExchangeGroup where
  index : Nat
  pairs : List Nat
  state : Lifecycle
deriving DecidableEq, Repr

def ExchangeGroup.isActive (g : ExchangeGroup) : Bool := g.state == .active

/-- Across a dynamic connector both ends swap their states; across a static one they keep
them. -/
inductive Connector where
  | dynamic
  | static
deriving DecidableEq, Repr

/-- An exchange group per path position and a connector between neighbours. -/
structure AbstractTransition where
  index : Nat
  name : String
  groups : List Nat
  connectors : List Connector
  state : Lifecycle
deriving DecidableEq, Repr

def AbstractTransition.isActive (t : AbstractTransition) : Bool := t.state == .active

structure KineticTransition where
  index : Nat
  name : String
  abstractTransition : Nat
  geometry : List Point
  attemptFrequency : Float
  state : Lifecycle
deriving DecidableEq, Repr

def KineticTransition.isActive (t : KineticTransition) : Bool := t.state == .active

/-- An exchange between any position of one site and any position of another. -/
structure MetropolisTransition where
  index : Nat
  name : String
  abstractTransition : Nat
  site0 : Nat
  site1 : Nat
  state : Lifecycle
deriving DecidableEq, Repr

namespace MetropolisTransition

def isActive (t : MetropolisTransition) : Bool := t.state == .active

def mentions (t : MetropolisTransition) (site : Nat) : Bool := t.site0 == site || t.site1 == site

end MetropolisTransition

end CrystalModel
