import CrystalModel.Structure.Model
import CrystalModel.Output.Key

/-! # Definitions of neighbourhoods

The pair targets and the clusters of every position. A cluster names its partners by their
places among the pair definitions of its position. -/
namespace CrystalModel

open Binary (PairDefinition ClusterDefinition)

def CrystalVector.toVector (v : CrystalVector) : Vector Int32 4 := #v[v.a, v.b, v.c, v.p]

namespace CrystalStructure

def pairRecords (p : CellPosition) : List PairDefinition :=
  p.targets.map fun target => ⟨target.relative.toVector, Int32.ofNat target.modelId⟩

def clusterRecords (s : CrystalStructure) (p : CellPosition) : List ClusterDefinition :=
  let models := (s.environments[p.environment]?.map (·.groupModels)).getD []
  models.filterMap fun id =>
    s.groupModels[id]?.map fun model => ⟨model.coding, Int32.ofNat model.modelId⟩

def blobs (s : CrystalStructure) : List KeyedBlob :=
  s.cellPositions.zipIdx.flatMap fun (p, id) =>
    [.ofRecords .pairDefinitions (some id) (pairRecords p),
      .ofRecords .clusterDefinitions (some id) (s.clusterRecords p)]

end CrystalStructure

end CrystalModel
