import CrystalModel.Document.Shown
import CrystalModel.Store.Resolution

/-! # Conflicts and reports as documents -/
namespace CrystalModel.Shown

instance : Shown Conflict := ⟨fun c => .list [shown c.kind.name, shown c.text]⟩

instance : Shown Amendment :=
  ⟨fun r => .list [shown r.domain.name, shown r.index, shown r.action.text]⟩

instance : Shown ResolutionReport := ⟨fun r => .table [("resolved", shown r.resolved),
  ("unresolved", shown r.unresolved), ("clean", shown r.isClean)]⟩

instance : Shown Issue := ⟨fun i => .table [("domain", shown i.domain.name),
  ("index", shown i.index), ("text", shown i.text)]⟩

end CrystalModel.Shown
