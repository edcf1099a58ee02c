import CrystalModel.Document.Shown
import CrystalModel.Structure.Model

/-! # Structures as documents -/
namespace CrystalModel

namespace Shown

instance : Shown Image := ⟨fun i => .list [shown i.position, shown i.operations]⟩

instance : Shown Environment := ⟨fun e => .table [("site", shown e.site),
  ("source", shown e.dictionary.source), ("images", shown e.dictionary.images),
  ("pair_models", shown e.pairModels), ("group_models", shown e.groupModels)]⟩

instance : Shown PairModel := ⟨fun m => .table [("model_id", shown m.modelId),
  ("environment", shown m.environment), ("interaction", shown m.interaction),
  ("inverted", shown m.inverted), ("center", shown m.center), ("target", shown m.target),
  ("target_site", shown m.targetSite), ("distance", shown m.distance),
  ("equivalents", shown m.equivalents.length)]⟩

instance : Shown GroupModel := ⟨fun m => .table [("model_id", shown m.modelId),
  ("environment", shown m.environment), ("interaction", shown m.interaction),
  ("center", shown m.center), ("partners", shown m.partners), ("coding", shown m.coding),
  ("equivalents", shown m.equivalents.length)]⟩

instance : Shown PairTarget :=
  ⟨fun t => .list [shown t.pairModel, shown t.modelId, shown t.relative]⟩

instance : Shown CellPosition := ⟨fun p => .table [("p", shown p.position),
  ("site", shown p.site), ("environment", shown p.environment),
  ("operation", shown p.operation.literal), ("targets", shown p.targets)]⟩

instance : Shown CrystalStructure := ⟨fun s => .table [("positions", shown s.encoder.positions),
  ("position_sites", shown s.positionSites), ("position_count", shown s.positionTotal),
  ("environments", shown s.environments),
  ("environment_by_site", shown (s.environments.zipIdx.map fun (e, number) => (e.site, number))),
  ("pair_models", shown s.pairModels), ("group_models", shown s.groupModels),
  ("pair_classes", shown s.pairMembers), ("group_classes", shown s.groupMembers),
  ("position_models", shown s.cellPositions)]⟩

end Shown

end CrystalModel
