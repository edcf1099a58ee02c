import CrystalModel.Store.Change
import CrystalModel.Text.Listing

/-! # Resolution of conflicts

A pipeline holds handlers for every kind of conflict. The first handler that does not defer
resolves the conflict; what every handler defers stays unresolved. -/
namespace CrystalModel

inductive Action where
  | deprecated
  | removedParticle (particle : Nat)
  | droppedEnergies (count : Nat)
deriving DecidableEq, Repr

def Action.text : Action → String
  | .deprecated => "deprecated"
  | .removedParticle particle => s!"removed particle {particle}"
  | .droppedEnergies count => s!"dropped {count} energy entries"

structure Amendment where
  domain : Domain
  index : Nat
  action : Action
deriving DecidableEq, Repr

/-- The changed data and a record of every changed object; none when the conflict is left to
others. -/
abbrev Handler := Conflict → ReferenceData → Option (ReferenceData × List Amendment)

structure ResolutionReport where
  resolved : List (Conflict × List Amendment)
  unresolved : List Conflict
deriving DecidableEq, Repr

namespace ResolutionReport

def empty : ResolutionReport := ⟨[], []⟩

def isClean (r : ResolutionReport) : Bool := r.resolved.isEmpty && r.unresolved.isEmpty

end ResolutionReport

structure Pipeline where
  handlers : ConflictKind → List Handler

namespace Pipeline

def empty : Pipeline := ⟨fun _ => []⟩

def register (p : Pipeline) (kind : ConflictKind) (handler : Handler) : Pipeline :=
  ⟨fun k => if k = kind then p.handlers k ++ [handler] else p.handlers k⟩

def countFor (p : Pipeline) (kind : ConflictKind) : Nat := (p.handlers kind).length

def resolveOne (p : Pipeline) (state : ReferenceData × ResolutionReport) (conflict : Conflict) :
    ReferenceData × ResolutionReport :=
  match (p.handlers conflict.kind).findSome? (· conflict state.1) with
  | some (r, records) =>
    (r, { state.2 with resolved := state.2.resolved ++ [(conflict, records)] })
  | none => (state.1, { state.2 with unresolved := state.2.unresolved ++ [conflict] })

def resolve (p : Pipeline) (r : ReferenceData) (conflicts : List Conflict) :
    ReferenceData × ResolutionReport :=
  conflicts.foldl p.resolveOne (r, .empty)

def text (p : Pipeline) : String :=
  let kinds := ConflictKind.all.filter fun kind => p.countFor kind != 0
  "ConflictPipeline \x7b handlers: " ++
    Text.bracketed (kinds.map fun kind =>
      "(" ++ kind.name ++ ", " ++ toString (p.countFor kind) ++ ")") ++ " \x7d"

end Pipeline

namespace Handler

def retireImage : Handler
  | .equivalentSites _ duplicate, r =>
    if r.sites[duplicate]?.isNone then none
    else some ({ r with
      sites := r.sites.modify duplicate fun s => { s with state := .deprecated } },
      [⟨.site, duplicate, .deprecated⟩])
  | _, _ => none

def stripSet (particle : Nat) (set : ParticleSet) : ParticleSet :=
  { set with particles := set.particles.filter (· != particle) }

def droppedRecord (domain : Domain) (index before after : Nat) : Option Amendment :=
  if after = before then none else some ⟨domain, index, .droppedEnergies (before - after)⟩

def stripPair (particle : Nat) (i : PairInteraction) : PairInteraction :=
  { i with energies := i.energies.filter (!·.mentions particle) }

def stripGroup (particle : Nat) (i : GroupInteraction) : GroupInteraction :=
  { i with energies := i.energies.filter (!·.mentions particle) }

/-- A removed particle leaves its sets, and takes the energies that name it along. -/
def forgetParticle : Handler
  | .removedParticle particle, r =>
    some ({ r with
      particleSets := r.particleSets.map (stripSet particle)
      pairInteractions := r.pairInteractions.map (stripPair particle)
      groupInteractions := r.groupInteractions.map (stripGroup particle) },
      ((r.particleSets.filter (·.particles.contains particle)).map fun set =>
        ⟨.particleSet, set.index, .removedParticle particle⟩) ++
      (r.pairInteractions.filterMap fun i => droppedRecord .pairInteraction i.index
        i.energies.length (stripPair particle i).energies.length) ++
      r.groupInteractions.filterMap fun i => droppedRecord .groupInteraction i.index
        i.energies.length (stripGroup particle i).energies.length)
  | _, _ => none

/-- Active interactions and transitions of a removed site are no longer used. -/
def retireDependents : Handler
  | .removedSite site, r =>
    let pair := fun (i : PairInteraction) => i.isActive && i.mentions site
    let group := fun (i : GroupInteraction) => i.isActive && i.centerSite == site
    let metropolis := fun (t : MetropolisTransition) => t.isActive && t.mentions site
    some ({ r with
      pairInteractions := r.pairInteractions.map fun i =>
        if pair i then { i with state := .deprecated } else i
      groupInteractions := r.groupInteractions.map fun i =>
        if group i then { i with state := .deprecated } else i
      metropolisTransitions := r.metropolisTransitions.map fun t =>
        if metropolis t then { t with state := .deprecated } else t },
      ((r.pairInteractions.filter pair).map fun i =>
        ⟨.pairInteraction, i.index, .deprecated⟩) ++
      ((r.groupInteractions.filter group).map fun i =>
        ⟨.groupInteraction, i.index, .deprecated⟩) ++
      (r.metropolisTransitions.filter metropolis).map fun t =>
        ⟨.metropolisTransition, t.index, .deprecated⟩)
  | _, _ => none

/-- Of two pair interactions that are images of each other the newer one is not used. -/
def retireNewPair : Handler
  | .duplicatePair _ newcomer, r =>
    if r.pairInteractions[newcomer]?.isNone then none
    else some ({ r with
      pairInteractions := r.pairInteractions.modify newcomer fun i =>
        { i with state := .deprecated } },
      [⟨.pairInteraction, newcomer, .deprecated⟩])
  | _, _ => none

def retireNewGroup : Handler
  | .duplicateGroup _ newcomer, r =>
    if r.groupInteractions[newcomer]?.isNone then none
    else some ({ r with
      groupInteractions := r.groupInteractions.modify newcomer fun i =>
        { i with state := .deprecated } },
      [⟨.groupInteraction, newcomer, .deprecated⟩])
  | _, _ => none

end Handler

namespace Pipeline

/-- A handler for every kind of conflict except rings. -/
def standard : Pipeline :=
  ((((empty.register .equivalentSites Handler.retireImage).register
    .removedParticle Handler.forgetParticle).register
    .removedSite Handler.retireDependents).register
    .duplicatePair Handler.retireNewPair).register
    .duplicateGroup Handler.retireNewGroup

end Pipeline

end CrystalModel
