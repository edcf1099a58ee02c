import CrystalModel.Build.Config
import CrystalModel.Build.Error

/-! # Validation

The index rule that every build relies on, and advisory issues about single objects. -/
namespace CrystalModel

namespace ReferenceData

/-- The void particle comes first, there are not too many particles, and every object is in
its place. -/
def checkPlaces (r : ReferenceData) : Except BuildError Unit :=
  if !r.startsWithVoid then .error (.invalid .particle voidIndex .voidMissing)
  else if particleLimit < r.particles.length then
    .error (.invalid .particle (r.particles.length - 1) .tooManyParticles)
  else match r.misplaced? with
    | some object => .error (.invalid object.domain object.index (.storedAt object.place))
    | none => .ok ()

def particleSetIssues (r : ReferenceData) (set : ParticleSet) : List Issue :=
  set.particles.filterMap fun particle =>
    match r.particles[particle]? with
    | some p => if p.isActive then none
      else some ⟨.particleSet, set.index, .deprecatedParticle particle⟩
    | none => none

def transitionActive? (r : ReferenceData) (kind : SimulationKind) (transition : Nat) :
    Option Bool :=
  match kind with
  | .kinetic => r.kineticTransitions[transition]?.map (·.isActive)
  | .metropolis => r.metropolisTransitions[transition]?.map (·.isActive)

def simulationIssues (r : ReferenceData) (s : Simulation) : List Issue :=
  (if s.transitions.isEmpty then [⟨.simulation, s.index, .noTransitions⟩] else []) ++
    (if s.kind = .kinetic ∧ s.fieldMagnitude == 0.0 then [⟨.simulation, s.index, .noField⟩]
      else []) ++
    s.transitions.filterMap fun transition =>
      if r.transitionActive? s.kind transition = some false then
        some ⟨.simulation, s.index, .deprecatedTransition transition⟩
      else none

def issues (r : ReferenceData) : List Issue :=
  (r.particleSets.filter (·.isActive)).flatMap r.particleSetIssues ++
    (r.simulations.filter (·.isActive)).flatMap r.simulationIssues

end ReferenceData

/-- The seeds that one pass draws at random, by the index of the simulation that needs one. Another
pass may draw other seeds, and all definitions take them as they come. -/
class RandomSeeds where
  draw : Nat → UInt64

/-- The seeds of a program without a source of randomness. -/
instance : RandomSeeds := ⟨UInt64.ofNat⟩

/-- The seed of a simulation. One that is not given is the fallback seed moved on by the index
of the simulation, or is drawn at random, and is noted. -/
def Simulation.seedWith [d : RandomSeeds] (s : Simulation) (config : Config) :
    UInt64 × List Issue :=
  match s.seed with
  | some seed => (seed, [])
  | none =>
    let seed := match config.fallbackSeed with
      | some base => base + UInt64.ofNat s.index
      | none => d.draw s.index
    (seed, [⟨.simulation, s.index, .generatedSeed seed⟩])

end CrystalModel
