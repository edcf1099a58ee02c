import CrystalModel.Build.Config
import CrystalModel.Reference.Data
import CrystalModel.Reference.Validation
import CrystalModel.Structure.Group

/-! # Building the structure

From reference data to the positions of the unit cell, the models around every site, and the
targets seen from every position. -/
namespace CrystalModel

namespace StructureDraft

def pairTarget (d : StructureDraft) (position : Nat) (op : Operation) (id : Nat) :
    Except BuildError PairTarget :=
  let model := d.pairModels[id]?
  let target := op.apply ((model.map (·.target)).getD Point.zero)
  match d.encoder.encode target with
  | none => .error (.defect (.targetOffLattice target position))
  | some relative => .ok ⟨id, (model.map (·.modelId)).getD 0, relative⟩

def cellPosition (d : StructureDraft) (position : Nat) (point : Point) :
    Except BuildError CellPosition :=
  let site := d.positionSites[position]?.getD 0
  let environment := (CrystalStructure.environmentOf d.environments site).getD 0
  let source := (d.environments[environment]?.map (·.dictionary.source)).getD Point.zero
  match d.symmetry.operationBetween source point with
  | none => .error (.defect (.unreachablePosition site position))
  | some operation => do
    let ids := (d.environments[environment]?.map (·.pairModels)).getD []
    let targets ← ids.mapM (d.pairTarget position operation)
    return ⟨position, site, environment, operation, targets⟩

/-- Every member of a class carries the index of the class and lists exactly its members. -/
def checkClasses (classes : List Nat) (models : List (Nat × List Nat)) :
    Except BuildError Unit :=
  classes.zipIdx.forM fun (representative, index) =>
    match models[representative]? with
    | none => .error (.defect (.classWithoutRepresentative index))
    | some (_, members) =>
      if !members.contains representative then
        .error (.defect (.classLacksRepresentative index))
      else members.forM fun member =>
        match models[member]? with
        | none => .error (.defect (.classWithMissingModel index))
        | some (found, others) =>
          if found ≠ index then .error (.defect (.memberOfOtherClass index found))
          else if others ≠ members then .error (.defect (.classNotClosed index))
          else .ok ()

end StructureDraft

namespace CrystalStructure

def draft (symmetry : Symmetry) (cell : Cell) (r : ReferenceData) (positions : PositionList) :
    StructureDraft where
  symmetry
  encoder := ⟨positions.points, cell, symmetry.tolerance⟩
  positionSites := positions.sites
  environments := (r.sites.filter (·.isActive)).map fun site =>
    ⟨site.index, symmetry.dictionary site.vector, [], []⟩
  pairModels := []
  groupModels := []
  pairClasses := []
  groupClasses := []

def build [Trigonometry] (r : ReferenceData) (config : Config) :
    Except BuildError CrystalStructure := do
  r.checkPlaces
  let symmetry ← (r.symmetry (.ofWidth config.geometryTolerance)).mapError .symmetry
  if !r.cell.isValid then .error (.invalid .cell 0 (.invalidCell r.cell))
  else
    let positions ← PositionList.ofSites symmetry r
    let d := draft symmetry r.cell r positions
    let d ← (r.pairInteractions.filter (·.isActive)).foldlM (StructureDraft.addPair r) d
    let d ← (r.groupInteractions.filter (·.isActive)).foldlM StructureDraft.addGroup d
    let cellPositions ← d.encoder.positions.zipIdx.mapM fun (point, position) =>
      d.cellPosition position point
    StructureDraft.checkClasses d.pairClasses (d.pairModels.map fun m => (m.modelId, m.equivalents))
    StructureDraft.checkClasses d.groupClasses
      (d.groupModels.map fun m => (m.modelId, m.equivalents))
    return { d with cellPositions }

end CrystalStructure

end CrystalModel
