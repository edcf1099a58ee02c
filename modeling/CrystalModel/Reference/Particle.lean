/-! # Particles

Species that occupy lattice positions. A species is known by its index, which is also its
byte in occupation codes. -/
namespace CrystalModel

/-- Deprecated objects keep their index and take no part in a build. -/
inductive Lifecycle where
  | active
  | deprecated
deriving DecidableEq, Repr

structure Particle where
  index : Nat
  name : String
  symbol : String
  charge : Float
  isVacancy : Bool
  state : Lifecycle
deriving DecidableEq, Repr

/-- Particle masks have a bit, and particle buffers a byte, for each of so many particles. -/
def particleLimit : Nat := 64

def voidIndex : Nat := 0

namespace Particle

def void : Particle := ⟨voidIndex, "Void", "Void", 0.0, false, .active⟩

def isVoid (p : Particle) : Bool := p.index == voidIndex

def isActive (p : Particle) : Bool := p.state == .active

end Particle

structure ParticleSet where
  index : Nat
  name : String
  particles : List Nat
  state : Lifecycle
deriving DecidableEq, Repr

def ParticleSet.isActive (s : ParticleSet) : Bool := s.state == .active

end CrystalModel
