import CrystalModel.Geometry.Cell
import CrystalModel.Reference.Interaction
import CrystalModel.Reference.Simulation
import CrystalModel.Reference.Site
import CrystalModel.Reference.Transition
import CrystalModel.Symmetry.Group

/-! # Reference data

The authored model. In data fit for a build the object at place `i` of a list carries index
`i`, and the void particle comes first. -/
namespace CrystalModel

structure ReferenceData where
  cell : Cell
  spaceGroup : GroupEntry
  particles : List Particle
  particleSets : List ParticleSet
  sites : List Site
  pairInteractions : List PairInteraction
  groupInteractions : List GroupInteraction
  exchangePairs : List ExchangePair
  exchangeGroups : List ExchangeGroup
  abstractTransitions : List AbstractTransition
  kineticTransitions : List KineticTransition
  metropolisTransitions : List MetropolisTransition
  simulations : List Simulation
deriving DecidableEq, Repr

/-- The parts of reference data that messages name. -/
inductive Domain where
  | cell
  | particle
  | particleSet
  | site
  | pairInteraction
  | groupInteraction
  | exchangePair
  | exchangeGroup
  | abstractTransition
  | kineticTransition
  | metropolisTransition
  | simulation
deriving DecidableEq, Repr

def Domain.name : Domain → String
  | .cell => "cell"
  | .particle => "particle"
  | .particleSet => "particle set"
  | .site => "site"
  | .pairInteraction => "pair interaction"
  | .groupInteraction => "group interaction"
  | .exchangePair => "exchange pair"
  | .exchangeGroup => "exchange group"
  | .abstractTransition => "abstract transition"
  | .kineticTransition => "kinetic transition"
  | .metropolisTransition => "metropolis transition"
  | .simulation => "simulation"

namespace ReferenceData

def empty : ReferenceData where
  cell := .unit
  spaceGroup := .trivial
  particles := []
  particleSets := []
  sites := []
  pairInteractions := []
  groupInteractions := []
  exchangePairs := []
  exchangeGroups := []
  abstractTransitions := []
  kineticTransitions := []
  metropolisTransitions := []
  simulations := []

def indexLists (r : ReferenceData) : List (Domain × List Nat) :=
  [(.particle, r.particles.map (·.index)),
    (.particleSet, r.particleSets.map (·.index)),
    (.site, r.sites.map (·.index)),
    (.pairInteraction, r.pairInteractions.map (·.index)),
    (.groupInteraction, r.groupInteractions.map (·.index)),
    (.exchangePair, r.exchangePairs.map (·.index)),
    (.exchangeGroup, r.exchangeGroups.map (·.index)),
    (.abstractTransition, r.abstractTransitions.map (·.index)),
    (.kineticTransition, r.kineticTransitions.map (·.index)),
    (.metropolisTransition, r.metropolisTransitions.map (·.index)),
    (.simulation, r.simulations.map (·.index))]

structure Misplaced where
  domain : Domain
  place : Nat
  index : Nat
deriving DecidableEq, Repr

/-- The first index in `indices` that differs from its place, counted from `place`. -/
def firstMisplaced (domain : Domain) : Nat → List Nat → Option Misplaced
  | _, [] => none
  | place, index :: indices =>
    if index = place then firstMisplaced domain (place + 1) indices
    else some ⟨domain, place, index⟩

def misplaced? (r : ReferenceData) : Option Misplaced :=
  r.indexLists.findSome? fun (domain, indices) => firstMisplaced domain 0 indices

def startsWithVoid (r : ReferenceData) : Bool := (r.particles.head?.map (·.isVoid)).getD false

inductive LoadError where
  | tooManyParticles (count : Nat)
  | misplaced (object : Misplaced)
deriving DecidableEq, Repr

def LoadError.message : LoadError → String
  | .tooManyParticles count =>
    s!"Too many particles: {count} exceeds the limit of {particleLimit}"
  | .misplaced object =>
    "Invalid " ++ object.domain.name ++
      s!" index: expected {object.place}, found {object.index}"

def withVoid (r : ReferenceData) : ReferenceData :=
  if r.startsWithVoid then r else { r with particles := .void :: r.particles }

/-- Adds the void particle where it is missing, and checks that every object is in place. -/
def normalize (r : ReferenceData) : Except LoadError ReferenceData :=
  let r := r.withVoid
  if particleLimit < r.particles.length then .error (.tooManyParticles r.particles.length)
  else match r.misplaced? with
    | some object => .error (.misplaced object)
    | none => .ok r

def symmetry (r : ReferenceData) (t : Tolerance) : Except SymmetryError Symmetry :=
  (SpaceGroup.ofLiterals t r.spaceGroup.index r.spaceGroup.name r.spaceGroup.operations).map
    (⟨·, t⟩)

end ReferenceData

end CrystalModel
