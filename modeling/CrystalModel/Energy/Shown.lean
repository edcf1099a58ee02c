import CrystalModel.Energy.Model
import CrystalModel.Reference.Shown

/-! # Energies as documents -/
namespace CrystalModel.Shown

instance : Shown EnergyTable := ⟨fun t => shown t.rows⟩

instance : Shown PairTable := ⟨fun t => .table [("model_id", shown t.modelId),
  ("interaction", shown t.interaction), ("kind", shown t.kind), ("inverted", shown t.inverted),
  ("table", shown t.table)]⟩

instance : Shown GroupTable := ⟨fun t => .table [("model_id", shown t.modelId),
  ("interaction", shown t.interaction), ("redirection", shown t.centers.zipIdx),
  ("codes", shown t.codes), ("table", shown t.table)]⟩

instance : Shown Energetics := ⟨fun e => .table [("pairs", shown e.pairTables),
  ("groups", shown e.groupTables), ("pair_links", shown e.pairLinks),
  ("group_links", shown e.groupLinks), ("pair_order", shown (List.range e.pairTables.length)),
  ("group_order", shown (List.range e.groupTables.length))]⟩

end CrystalModel.Shown
