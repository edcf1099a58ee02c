import CrystalModel.Path.Ring
import CrystalModel.Reference.Data
import CrystalModel.Store.Change
import CrystalModel.Symmetry.Projection
import CrystalModel.Symmetry.Wyckoff

/-! # Detection of conflicts

What a change, which the data already contain, has run into. -/
namespace CrystalModel

namespace ReferenceData

def isImage (s : Symmetry) (kept site : Site) : Bool :=
  s.tolerance.hasPoint (s.orbit kept.vector)
    (Fractional.trimPoint s.tolerance site.vector)

def imagesOf (s : Symmetry) (known : List Nat) (kept : Site) (others : List Site) : List Nat :=
  others.foldl (fun found other =>
    if !(known ++ found).contains other.index && isImage s kept other then found ++ [other.index]
    else found) []

/-- Every site that is not an image itself is compared with all later ones. -/
def equivalentSites (s : Symmetry) (known : List Nat) : List Site → List Conflict
  | [] => []
  | kept :: others =>
    if known.contains kept.index then equivalentSites s known others
    else
      let found := imagesOf s known kept others
      found.map (.equivalentSites kept.index) ++ equivalentSites s (known ++ found) others

def equivalentSite? (r : ReferenceData) (s : Symmetry) (site : Site) : Option Conflict :=
  (r.sites.find? fun other =>
    other.isActive && other.index != site.index && isImage s other site).map
    fun kept => .equivalentSites kept.index site.index

def mentionsParticle (r : ReferenceData) (particle : Nat) : Bool :=
  r.particleSets.any (·.particles.contains particle) ||
    r.pairInteractions.any (·.energies.any (·.mentions particle)) ||
    r.groupInteractions.any (·.energies.any (·.mentions particle))

def mentionsSite (r : ReferenceData) (site : Nat) : Bool :=
  r.pairInteractions.any (fun i => i.isActive && i.mentions site) ||
    r.groupInteractions.any (fun i => i.isActive && i.centerSite == site) ||
    r.metropolisTransitions.any (fun t => t.isActive && t.mentions site)

/-- The path moved so that it starts in the origin cell. -/
def fromOriginCell (t : Tolerance) (path : List Point) : List Point :=
  match path with
  | [] => []
  | first :: _ => path.map (· - Fractional.ofOffset (Fractional.cellOf t first))

/-- The first active pair interaction that a new one is an image of, in either direction. -/
def duplicatePair? (r : ReferenceData) (s : Symmetry) (newcomer : PairInteraction) :
    Option Conflict :=
  let images := s.pathImages [newcomer.position0, newcomer.position1]
  (r.pairInteractions.find? fun i =>
    i.isActive && i.index != newcomer.index && images.any fun image =>
      s.tolerance.closeSequences image (fromOriginCell s.tolerance [i.position0, i.position1]) ||
        s.tolerance.closeSequences image
          (fromOriginCell s.tolerance [i.position1, i.position0])).map
    fun i => .duplicatePair i.index newcomer.index

def duplicateGroup? (r : ReferenceData) (s : Symmetry) (newcomer : GroupInteraction) :
    Option Conflict :=
  match r.sites[newcomer.centerSite]? with
  | none => none
  | some center =>
    let images := s.sequenceImages center.vector newcomer.geometry
    (r.groupInteractions.find? fun i =>
      i.isActive && i.index != newcomer.index && i.centerSite == newcomer.centerSite &&
        images.any (s.tolerance.closeSets · i.geometry)).map
      fun i => .duplicateGroup i.index newcomer.index

end ReferenceData

/-- The conflicts of a change, in the order in which they are to be resolved. -/
def DataChange.conflicts (change : DataChange) (r : ReferenceData) (t : Tolerance) :
    Except SymmetryError (List Conflict) :=
  match change with
  | .setSpaceGroup _ => do
    return ReferenceData.equivalentSites (← r.symmetry t) [] (r.sites.filter (·.isActive))
  | .addSite site => do
    return (r.equivalentSite? (← r.symmetry t) site).toList
  | .removeParticle particle =>
    return if r.mentionsParticle particle then [.removedParticle particle] else []
  | .removeSite site => return if r.mentionsSite site then [.removedSite site] else []
  | .addPair i => do
    return (r.duplicatePair? (← r.symmetry t) i).toList
  | .addGroup i => do
    return (r.duplicateGroup? (← r.symmetry t) i).toList
  | .addKinetic transition =>
    return if isRing t transition.geometry then [.ringGeometry transition.index] else []
  | .addParticle _ => return []
  | .addSimulation _ => return []

end CrystalModel
