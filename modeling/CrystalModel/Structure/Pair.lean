import CrystalModel.Structure.Position
import CrystalModel.Symmetry.Projection

/-! # Pair models

Every active pair interaction is seen from the environment of its first site and, when its
sites differ, also from that of its second. Each view is one class: the images of the partner
under the site symmetry of the center. -/
namespace CrystalModel

structure StructureDraft where
  symmetry : Symmetry
  encoder : Encoder
  positionSites : List Nat
  environments : List Environment
  pairModels : List PairModel
  groupModels : List GroupModel
  pairClasses : List Nat
  groupClasses : List Nat
deriving DecidableEq

/-- A pair interaction seen from one of its ends. -/
structure PairView where
  inverted : Bool
  centerSite : Nat
  center : Point
  partner : Point
  partnerSite : Nat
deriving DecidableEq, Repr

namespace PairInteraction

def views (i : PairInteraction) : List PairView :=
  let forward : PairView := ⟨false, i.site0, i.position0, i.position1, i.site1⟩
  let backward : PairView := ⟨true, i.site1, i.position1, i.position0, i.site0⟩
  if i.site0 = i.site1 then [forward] else [forward, backward]

def checkSites (r : ReferenceData) (i : PairInteraction) : Except BuildError Unit :=
  [i.site0, i.site1].forM fun site =>
    if (r.sites[site]?.map (·.isActive)).getD false then .ok ()
    else .error (.invalid .pairInteraction i.index (.unknownSite site))

end PairInteraction

namespace StructureDraft

variable [Trigonometry]

/-- The distinct images of `target` under the site symmetry of `origin`. -/
def partnerImages (s : Symmetry) (origin target : Point) : List Point :=
  Symmetry.firsts s.tolerance.closePoints ((s.siteOperations origin).map (·.apply target))

/-- The model of one image: it lies on the partner's site and away from the center. -/
def pairModel (d : StructureDraft) (i : PairInteraction) (view : PairView) (environment : Nat)
    (origin : Point) (members : List Nat) (image : Point) : Except BuildError PairModel :=
  let landing := (d.encoder.encode image).bind (CrystalStructure.siteAt d.positionSites)
  let distance := d.encoder.cell.distance origin image
  if landing ≠ some view.partnerSite then
    .error (.invalid .pairInteraction i.index (.partnerOffSite image view.partnerSite))
  else if d.symmetry.tolerance.isZero distance then
    .error (.invalid .pairInteraction i.index .partnersCoincide)
  else .ok {
    modelId := d.pairClasses.length
    environment
    interaction := i.index
    inverted := view.inverted
    center := origin
    target := image
    targetSite := view.partnerSite
    distance
    equivalents := members }

def addPairView (i : PairInteraction) (d : StructureDraft) (view : PairView) :
    Except BuildError StructureDraft :=
  match CrystalStructure.environmentOf d.environments view.centerSite with
  | none => .error (.invalid .pairInteraction i.index (.noEnvironment view.centerSite))
  | some environment =>
    let origin := (d.environments[environment]?.map (·.dictionary.source)).getD Point.zero
    match d.symmetry.operationBetween view.center origin with
    | none =>
      .error (.invalid .pairInteraction i.index (.positionOffSite view.center view.centerSite))
    | some op =>
      let images := partnerImages d.symmetry origin (op.apply view.partner)
      let first := d.pairModels.length
      let members := List.range' first images.length
      if images.isEmpty then .error (.emptyClass .pairInteraction i.index)
      else do
        let models ← images.mapM (d.pairModel i view environment origin members)
        return { d with
          environments := d.environments.modify environment fun e =>
            { e with pairModels := e.pairModels ++ members }
          pairModels := d.pairModels ++ models
          pairClasses := d.pairClasses ++ [first] }

def addPair (r : ReferenceData) (d : StructureDraft) (i : PairInteraction) :
    Except BuildError StructureDraft := do
  i.checkSites r
  i.views.foldlM (addPairView i) d

end StructureDraft

end CrystalModel
