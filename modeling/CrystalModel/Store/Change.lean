import CrystalModel.Build.Error

/-! # Changes of reference data

Single edits. New objects are appended, removed ones become deprecated, so that no object ever
changes its place. -/
namespace CrystalModel

inductive DataChange where
  | addParticle (particle : Particle)
  | removeParticle (index : Nat)
  | addSite (site : Site)
  | removeSite (index : Nat)
  | setSpaceGroup (entry : GroupEntry)
  | addPair (interaction : PairInteraction)
  | addGroup (interaction : GroupInteraction)
  | addKinetic (transition : KineticTransition)
  | addSimulation (simulation : Simulation)
deriving DecidableEq, Repr

namespace DataChange

/-- Appends a new object, which has to carry the next free index. -/
def append {α : Type} (domain : Domain) (index : Nat) (objects : List α) (newcomer : α) :
    Except BuildError (List α) :=
  if index = objects.length then .ok (objects ++ [newcomer])
  else .error (.invalid domain index (.nextFree objects.length))

def apply (r : ReferenceData) : DataChange → Except BuildError ReferenceData
  | addParticle p => do
    let particles ← append .particle p.index r.particles p
    if particleLimit ≤ r.particles.length then
      .error (.invalid .particle p.index .tooManyParticles)
    else return { r with particles }
  | removeParticle index =>
    if (r.particles[index]?.filter (!·.isVoid)).isNone then
      .error (.invalid .particle index .noSuchObject)
    else return { r with
      particles := r.particles.modify index fun p => { p with state := .deprecated } }
  | addSite site => do
    return { r with sites := ← append .site site.index r.sites site }
  | removeSite index =>
    if r.sites[index]?.isNone then .error (.invalid .site index .noSuchObject)
    else return { r with sites := r.sites.modify index fun s => { s with state := .deprecated } }
  | setSpaceGroup entry => return { r with spaceGroup := entry }
  | addPair i => do
    let pairInteractions ← append .pairInteraction i.index r.pairInteractions i
    return { r with pairInteractions }
  | addGroup i => do
    let groupInteractions ← append .groupInteraction i.index r.groupInteractions i
    return { r with groupInteractions }
  | addKinetic t => do
    let kineticTransitions ← append .kineticTransition t.index r.kineticTransitions t
    return { r with kineticTransitions }
  | addSimulation s => do
    return { r with simulations := ← append .simulation s.index r.simulations s }

end DataChange

end CrystalModel
