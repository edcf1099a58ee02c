import CrystalModel.Document.Shown
import CrystalModel.Reference.Data

/-! # Reference data as documents -/
namespace CrystalModel

namespace Shown

instance : Shown Cell := ⟨fun c => shown [c.a, c.b, c.c, c.alpha, c.beta, c.gamma]⟩

instance : Shown GroupEntry := ⟨fun g => .list [shown g.index, shown g.name, shown g.operations]⟩

instance : Shown Lifecycle where
  shown
    | .active => .text "active"
    | .deprecated => .text "deprecated"

instance : Shown PairKind where
  shown
    | .symmetric => .text "symmetric"
    | .asymmetric => .text "asymmetric"

instance : Shown Connector where
  shown
    | .dynamic => .text "dynamic"
    | .static => .text "static"

instance : Shown SimulationKind where
  shown
    | .kinetic => .text "kinetic"
    | .metropolis => .text "metropolis"

instance : Shown Stability where
  shown
    | .stable => .text "stable"
    | .unstable => .text "unstable"

instance : Shown Particle := ⟨fun p => .table [("index", shown p.index), ("name", shown p.name),
  ("symbol", shown p.symbol), ("charge", shown p.charge), ("is-vacancy", shown p.isVacancy),
  ("state", shown p.state), ("void", shown p.isVoid)]⟩

instance : Shown ParticleSet := ⟨fun s => .table [("index", shown s.index),
  ("name", shown s.name), ("particles", shown s.particles), ("state", shown s.state)]⟩

instance : Shown Site := ⟨fun s => .table [("index", shown s.index), ("name", shown s.name),
  ("vector", shown s.vector), ("occupation", shown s.occupation),
  ("stability", shown s.stability), ("is-stable", shown s.isStable), ("state", shown s.state)]⟩

instance : Shown PairEnergy := ⟨fun e => .list [shown e.center, shown e.partner, shown e.energy]⟩

instance : Shown PairInteraction := ⟨fun i => .table [("index", shown i.index),
  ("sites", shown [i.site0, i.site1]), ("positions", shown [i.position0, i.position1]),
  ("kind", shown i.kind), ("energies", shown i.energies), ("state", shown i.state)]⟩

instance : Shown GroupEnergy :=
  ⟨fun e => .list [shown e.center, shown e.occupation, shown e.energy]⟩

instance : Shown GroupInteraction := ⟨fun i => .table [("index", shown i.index),
  ("center-site", shown i.centerSite), ("geometry", shown i.geometry),
  ("energies", shown i.energies), ("state", shown i.state)]⟩

instance : Shown ExchangePair := ⟨fun p => .table [("index", shown p.index),
  ("donor", shown p.donor), ("acceptor", shown p.acceptor), ("unstable", shown p.unstable),
  ("state", shown p.state)]⟩

instance : Shown ExchangeGroup := ⟨fun g => .table [("index", shown g.index),
  ("pairs", shown g.pairs), ("state", shown g.state)]⟩

instance : Shown AbstractTransition := ⟨fun t => .table [("index", shown t.index),
  ("name", shown t.name), ("groups", shown t.groups), ("connectors", shown t.connectors),
  ("state", shown t.state)]⟩

instance : Shown KineticTransition := ⟨fun t => .table [("index", shown t.index),
  ("name", shown t.name), ("abstract-transition", shown t.abstractTransition),
  ("geometry", shown t.geometry), ("attempt-frequency", shown t.attemptFrequency),
  ("state", shown t.state)]⟩

instance : Shown MetropolisTransition := ⟨fun t => .table [("index", shown t.index),
  ("name", shown t.name), ("abstract-transition", shown t.abstractTransition),
  ("sites", shown [t.site0, t.site1]), ("state", shown t.state)]⟩

instance : Shown Simulation := ⟨fun s => .table [("index", shown s.index),
  ("name", shown s.name), ("kind", shown s.kind), ("transitions", shown s.transitions),
  ("electric-field", shown s.electricField), ("field-magnitude", shown s.fieldMagnitude),
  ("temperature", shown s.temperature), ("lattice-size", shown s.latticeSize),
  ("seed", shown s.seed), ("target-mcsp", shown s.targetSteps), ("state", shown s.state)]⟩

instance : Shown ReferenceData := ⟨fun r => .table [("cell", shown r.cell),
  ("space-group", shown r.spaceGroup), ("particles", shown r.particles),
  ("particle-sets", shown r.particleSets), ("sites", shown r.sites),
  ("pair-interactions", shown r.pairInteractions),
  ("group-interactions", shown r.groupInteractions),
  ("exchange-pairs", shown r.exchangePairs), ("exchange-groups", shown r.exchangeGroups),
  ("abstract-transitions", shown r.abstractTransitions),
  ("kinetic-transitions", shown r.kineticTransitions),
  ("metropolis-transitions", shown r.metropolisTransitions),
  ("simulations", shown r.simulations)]⟩

end Shown

namespace ReferenceData

def letters {α : Type} (isActive : α → Bool) (objects : List α) : String :=
  String.ofList (objects.map fun object => if isActive object then 'A' else 'D')

def brief (r : ReferenceData) : Document :=
  .table [("group", .list [shown r.spaceGroup.index, shown r.spaceGroup.name,
      shown r.spaceGroup.operations.length]),
    ("particles", shown (letters (·.isActive) r.particles)),
    ("sites", shown (letters (·.isActive) r.sites)),
    ("pairs", shown (letters (·.isActive) r.pairInteractions)),
    ("groups", shown (letters (·.isActive) r.groupInteractions)),
    ("kinetic", shown (letters (·.isActive) r.kineticTransitions)),
    ("metropolis", shown (letters (·.isActive) r.metropolisTransitions)),
    ("simulations", shown (letters (·.isActive) r.simulations)),
    ("particle-sets", shown (r.particleSets.map (·.particles))),
    ("pair-energies", shown (r.pairInteractions.map (·.energies.length))),
    ("group-energies", shown (r.groupInteractions.map (·.energies.length)))]

def counts (r : ReferenceData) : List Nat := r.indexLists.map fun (_, indices) => indices.length

end ReferenceData

end CrystalModel
