import CrystalModel.Build.Error
import CrystalModel.Structure.Model

/-! # Positions of the unit cell

The symmetry images of all active sites, site after site. No two of them may coincide. -/
namespace CrystalModel

structure PositionList where
  points : List Point
  sites : List Nat
deriving DecidableEq, Repr

namespace PositionList

def empty : PositionList := ⟨[], []⟩

def addImage (t : Tolerance) (site : Nat) (l : PositionList) (image : Point) :
    Except BuildError PositionList :=
  match t.placeOf l.points image with
  | some p => .error (.defect (.overlap site (l.sites[p]?.getD 0) p))
  | none => .ok ⟨l.points ++ [image], l.sites ++ [site]⟩

def addSite (s : Symmetry) (r : ReferenceData) (l : PositionList) (site : Site) :
    Except BuildError PositionList :=
  if (r.particleSets[site.occupation]?.map (·.isActive)).getD false then
    (s.orbit site.vector).foldlM (addImage s.tolerance site.index) l
  else .error (.invalid .site site.index (.unknownParticleSet site.occupation))

def ofSites (s : Symmetry) (r : ReferenceData) : Except BuildError PositionList :=
  (r.sites.filter (·.isActive)).foldlM (addSite s r) empty

end PositionList

end CrystalModel
