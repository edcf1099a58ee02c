/-! # Conflicts

What a change of the reference data may run into. -/
namespace CrystalModel

inductive ConflictKind where
  | equivalentSites
  | removedParticle
  | removedSite
  | duplicatePair
  | duplicateGroup
  | ringGeometry
deriving DecidableEq, Repr

namespace ConflictKind

def all : List ConflictKind :=
  [equivalentSites, removedParticle, removedSite, duplicatePair, duplicateGroup, ringGeometry]

def name : ConflictKind → String
  | equivalentSites => "EquivalentSites"
  | removedParticle => "RemovedParticle"
  | removedSite => "RemovedSite"
  | duplicatePair => "DuplicatePairInteraction"
  | duplicateGroup => "DuplicateGroupInteraction"
  | ringGeometry => "RingGeometry"

end ConflictKind

inductive Conflict where
  | equivalentSites (kept duplicate : Nat)
  | removedParticle (particle : Nat)
  | removedSite (site : Nat)
  | duplicatePair (existing newcomer : Nat)
  | duplicateGroup (existing newcomer : Nat)
  | ringGeometry (transition : Nat)
deriving DecidableEq, Repr

namespace Conflict

def kind : Conflict → ConflictKind
  | equivalentSites .. => .equivalentSites
  | removedParticle .. => .removedParticle
  | removedSite .. => .removedSite
  | duplicatePair .. => .duplicatePair
  | duplicateGroup .. => .duplicateGroup
  | ringGeometry .. => .ringGeometry

def text : Conflict → String
  | equivalentSites kept duplicate => s!"site {duplicate} is equivalent to site {kept}"
  | removedParticle particle => s!"removed particle {particle} is still referenced"
  | removedSite site => s!"removed site {site} is still referenced"
  | duplicatePair existing newcomer => s!"pair interaction {newcomer} duplicates {existing}"
  | duplicateGroup existing newcomer => s!"group interaction {newcomer} duplicates {existing}"
  | ringGeometry transition => s!"kinetic transition {transition} describes a ring path"

end Conflict

end CrystalModel
