import CrystalModel.Geometry.Encoder
import CrystalModel.Symmetry.Wyckoff

/-! # Structure models

What symmetry makes of the authored sites and interactions. Models are numbered in the order
in which they are built, and refer to each other by these numbers. -/
namespace CrystalModel

/-- The neighbourhood of a site: its images, and the models centered on it. -/
structure Environment where
  site : Nat
  dictionary : Wyckoff
  pairModels : List Nat
  groupModels : List Nat
deriving DecidableEq, Repr

/-- One symmetry image of a pair interaction. All images of one orientation form a class, and
`inverted` tells that the environment belongs to the second site. -/
structure PairModel where
  modelId : Nat
  environment : Nat
  interaction : Nat
  inverted : Bool
  center : Point
  target : Point
  targetSite : Nat
  distance : Float
  equivalents : List Nat
deriving DecidableEq, Repr

/-- One symmetry image of a group interaction. The coding tells the place of each partner among
the pair models of the environment. -/
structure GroupModel where
  modelId : Nat
  environment : Nat
  interaction : Nat
  center : Point
  partners : List Point
  coding : Vector Int32 8
  equivalents : List Nat
deriving DecidableEq

/-- A pair target seen from a position: its cell relative to that position, and its place. -/
structure PairTarget where
  pairModel : Nat
  modelId : Nat
  relative : CrystalVector
deriving DecidableEq, Repr

/-- A position of the unit cell, with the operation that carries its site onto it. -/
structure CellPosition where
  position : Nat
  site : Nat
  environment : Nat
  operation : Operation
  targets : List PairTarget
deriving DecidableEq, Repr

structure CrystalStructure where
  symmetry : Symmetry
  encoder : Encoder
  positionSites : List Nat
  environments : List Environment
  pairModels : List PairModel
  groupModels : List GroupModel
  cellPositions : List CellPosition
  pairClasses : List Nat
  groupClasses : List Nat
deriving DecidableEq

namespace CrystalStructure

def positionTotal (s : CrystalStructure) : Nat := s.positionSites.length

def positionsOn (s : CrystalStructure) (site : Nat) : List Nat :=
  s.positionSites.zipIdx.filterMap fun (other, p) => if other = site then some p else none

def pairMembers (s : CrystalStructure) : List (List Nat) :=
  s.pairClasses.filterMap fun first => s.pairModels[first]?.map (·.equivalents)

def groupMembers (s : CrystalStructure) : List (List Nat) :=
  s.groupClasses.filterMap fun first => s.groupModels[first]?.map (·.equivalents)

def environmentOf (environments : List Environment) (site : Nat) : Option Nat :=
  environments.findIdx? (·.site == site)

def siteAt (positionSites : List Nat) (v : CrystalVector) : Option Nat :=
  positionSites[v.p.toInt.toNat]?

end CrystalStructure

end CrystalModel
