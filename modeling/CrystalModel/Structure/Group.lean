import CrystalModel.Path.Midpoint
import CrystalModel.Structure.Pair

/-! # Group models

Every active group interaction is one class: the images of its partners under the site
symmetry of its center. Every partner has to be the target of a pair model. -/
namespace CrystalModel.StructureDraft

def partnerCoding (d : StructureDraft) (i : GroupInteraction) (environment : Nat)
    (partners : List Point) : Except BuildError (List Nat) :=
  let pairs := (d.environments[environment]?.map (·.pairModels)).getD []
  let targets := pairs.map fun id => d.pairModels[id]?.map (·.target)
  partners.mapM fun partner =>
    match targets.findIdx? (fun target =>
      (target.map (d.symmetry.tolerance.closePoints · partner)).getD false) with
    | some place => .ok place
    | none => .error (.defect (.partnerWithoutPair partner i.index))

/-- Unused places of a coding hold minus one. -/
def paddedCoding (places : List Nat) : Vector Int32 8 :=
  Vector.ofFn fun slot => (places[slot.val]?.map Int32.ofNat).getD (-1)

def groupModel (d : StructureDraft) (i : GroupInteraction) (environment : Nat) (origin : Point)
    (members : List Nat) (sequence : List Point) : Except BuildError GroupModel :=
  if !sameMidpoints d.symmetry (origin :: i.geometry) (origin :: sequence) then
    .error (.defect (.inconsistentIntermediates i.index))
  else do
    let places ← d.partnerCoding i environment sequence
    return {
      modelId := d.groupClasses.length
      environment
      interaction := i.index
      center := origin
      partners := sequence
      coding := paddedCoding places
      equivalents := members }

def addGroup (d : StructureDraft) (i : GroupInteraction) : Except BuildError StructureDraft :=
  match CrystalStructure.environmentOf d.environments i.centerSite with
  | none => .error (.invalid .groupInteraction i.index (.unknownSite i.centerSite))
  | some environment =>
    if i.geometry.isEmpty ∨ 8 < i.geometry.length then
      .error (.invalid .groupInteraction i.index (.partnerCount i.geometry.length))
    else
      let origin := (d.environments[environment]?.map (·.dictionary.source)).getD Point.zero
      let sequences := d.symmetry.sequenceImages origin i.geometry
      let first := d.groupModels.length
      let members := List.range' first sequences.length
      if sequences.isEmpty then .error (.emptyClass .groupInteraction i.index)
      else do
        let models ← sequences.mapM (d.groupModel i environment origin members)
        return { d with
          environments := d.environments.modify environment fun e =>
            { e with groupModels := e.groupModels ++ members }
          groupModels := d.groupModels ++ models
          groupClasses := d.groupClasses ++ [first] }

end CrystalModel.StructureDraft
