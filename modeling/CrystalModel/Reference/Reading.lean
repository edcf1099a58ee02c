import CrystalModel.Document.Reading
import CrystalModel.Document.Toml
import CrystalModel.Reference.Data

/-! # Reading reference data

The written form of reference data. Keys besides the named ones are refused. -/
namespace CrystalModel

open Document Document.Reader

def Lifecycle.read : Reader Lifecycle :=
  oneOf [("active", .active), ("deprecated", .deprecated)]

/-- The lifecycle is left out for active objects. -/
def readState (m : List (String × Document)) : Except Document.Fault Lifecycle :=
  memberOr m "state" .active Lifecycle.read

def Cell.read : Reader Cell := fun d => do
  let m ← members ["a", "b", "c", "alpha", "beta", "gamma"] d
  return ⟨← member m "a" real, ← member m "b" real, ← member m "c" real,
    ← memberOr m "alpha" 90.0 real, ← memberOr m "beta" 90.0 real,
    ← memberOr m "gamma" 90.0 real⟩

def GroupEntry.read : Reader GroupEntry := fun d => do
  let m ← members ["index", "name", "operations"] d
  return ⟨← member m "index" (upTo (UInt32.size - 1)), ← member m "name" text,
    ← member m "operations" (list text)⟩

def Particle.read : Reader Particle := fun d => do
  let m ← members ["index", "name", "symbol", "charge", "is-vacancy", "state"] d
  return ⟨← member m "index" natural, ← member m "name" text, ← member m "symbol" text,
    ← memberOr m "charge" 0.0 real, ← memberOr m "is-vacancy" false flag, ← readState m⟩

def ParticleSet.read : Reader ParticleSet := fun d => do
  let m ← members ["index", "name", "particles", "state"] d
  return ⟨← member m "index" natural, ← memberOr m "name" "" text,
    ← member m "particles" (list natural), ← readState m⟩

def Stability.read : Reader Stability := oneOf [("stable", .stable), ("unstable", .unstable)]

def Site.read : Reader Site := fun d => do
  let m ← members ["index", "name", "vector", "occupation", "stability", "state"] d
  return ⟨← member m "index" natural, ← memberOr m "name" "" text, ← member m "vector" point,
    ← member m "occupation" natural, ← memberOr m "stability" .stable Stability.read,
    ← readState m⟩

def PairKind.read : Reader PairKind :=
  oneOf [("symmetric", .symmetric), ("asymmetric", .asymmetric)]

def PairEnergy.read : Reader PairEnergy := fun d => do
  let m ← members ["center", "partner", "energy"] d
  return ⟨← member m "center" natural, ← member m "partner" natural, ← member m "energy" real⟩

def PairInteraction.read : Reader PairInteraction := fun d => do
  let m ← members
    ["index", "site0", "site1", "position0", "position1", "kind", "energies", "state"] d
  return ⟨← member m "index" natural, ← member m "site0" natural, ← member m "site1" natural,
    ← member m "position0" point, ← member m "position1" point,
    ← memberOr m "kind" .symmetric PairKind.read,
    ← memberOr m "energies" [] (list PairEnergy.read), ← readState m⟩

def GroupEnergy.read : Reader GroupEnergy := fun d => do
  let m ← members ["center", "occupation", "energy"] d
  return ⟨← member m "center" natural, ← member m "occupation" (list natural),
    ← member m "energy" real⟩

def GroupInteraction.read : Reader GroupInteraction := fun d => do
  let m ← members ["index", "center-site", "geometry", "energies", "state"] d
  return ⟨← member m "index" natural, ← member m "center-site" natural,
    ← member m "geometry" (list point), ← memberOr m "energies" [] (list GroupEnergy.read),
    ← readState m⟩

def ExchangePair.read : Reader ExchangePair := fun d => do
  let m ← members ["index", "donor", "acceptor", "unstable", "state"] d
  return ⟨← member m "index" natural, ← member m "donor" natural, ← member m "acceptor" natural,
    ← memberOr m "unstable" false flag, ← readState m⟩

def ExchangeGroup.read : Reader ExchangeGroup := fun d => do
  let m ← members ["index", "pairs", "state"] d
  return ⟨← member m "index" natural, ← member m "pairs" (list natural), ← readState m⟩

def Connector.read : Reader Connector := oneOf [("dynamic", .dynamic), ("static", .static)]

def AbstractTransition.read : Reader AbstractTransition := fun d => do
  let m ← members ["index", "name", "groups", "connectors", "state"] d
  return ⟨← member m "index" natural, ← memberOr m "name" "" text,
    ← member m "groups" (list natural), ← member m "connectors" (list Connector.read),
    ← readState m⟩

def KineticTransition.read : Reader KineticTransition := fun d => do
  let m ← members
    ["index", "name", "abstract-transition", "geometry", "attempt-frequency", "state"] d
  return ⟨← member m "index" natural, ← memberOr m "name" "" text,
    ← member m "abstract-transition" natural, ← member m "geometry" (list point),
    ← memberOr m "attempt-frequency" 1.0 real, ← readState m⟩

def MetropolisTransition.read : Reader MetropolisTransition := fun d => do
  let m ← members ["index", "name", "abstract-transition", "site0", "site1", "state"] d
  return ⟨← member m "index" natural, ← memberOr m "name" "" text,
    ← member m "abstract-transition" natural, ← member m "site0" natural,
    ← member m "site1" natural, ← readState m⟩

def SimulationKind.read : Reader SimulationKind :=
  oneOf [("kinetic", .kinetic), ("metropolis", .metropolis)]

def Simulation.read : Reader Simulation := fun d => do
  let m ← members ["index", "name", "kind", "transitions", "electric-field", "field-magnitude",
    "temperature", "lattice-size", "seed", "target-mcsp", "state"] d
  return ⟨← member m "index" natural, ← memberOr m "name" "" text,
    ← member m "kind" SimulationKind.read, ← member m "transitions" (list natural),
    ← memberOr m "electric-field" Point.zero point, ← memberOr m "field-magnitude" 0.0 real,
    ← member m "temperature" real, ← member m "lattice-size" (triple int32),
    ← member? m "seed" word, ← memberOr m "target-mcsp" 0 word, ← readState m⟩

namespace ReferenceData

def read : Reader ReferenceData := fun d => do
  let m ← members ["cell", "space-group", "particles", "particle-sets", "sites",
    "pair-interactions", "group-interactions", "exchange-pairs", "exchange-groups",
    "abstract-transitions", "kinetic-transitions", "metropolis-transitions", "simulations"] d
  return {
    cell := ← memberOr m "cell" .unit Cell.read
    spaceGroup := ← memberOr m "space-group" .trivial GroupEntry.read
    particles := ← memberOr m "particles" [] (list Particle.read)
    particleSets := ← memberOr m "particle-sets" [] (list ParticleSet.read)
    sites := ← memberOr m "sites" [] (list Site.read)
    pairInteractions := ← memberOr m "pair-interactions" [] (list PairInteraction.read)
    groupInteractions := ← memberOr m "group-interactions" [] (list GroupInteraction.read)
    exchangePairs := ← memberOr m "exchange-pairs" [] (list ExchangePair.read)
    exchangeGroups := ← memberOr m "exchange-groups" [] (list ExchangeGroup.read)
    abstractTransitions := ← memberOr m "abstract-transitions" [] (list AbstractTransition.read)
    kineticTransitions := ← memberOr m "kinetic-transitions" [] (list KineticTransition.read)
    metropolisTransitions :=
      ← memberOr m "metropolis-transitions" [] (list MetropolisTransition.read)
    simulations := ← memberOr m "simulations" [] (list Simulation.read) }

inductive TextError where
  | notToml
  | form (fault : Document.Fault)
  | content (error : LoadError)
deriving DecidableEq, Repr

def ofToml (content : String) : Except TextError ReferenceData :=
  match Toml.read? content with
  | none => .error .notToml
  | some d => match read d with
    | .error fault => .error (.form fault)
    | .ok r => r.normalize.mapError .content

end ReferenceData

end CrystalModel
