import CrystalModel.Document.Basic
import CrystalModel.Geometry.Crystal
import CrystalModel.Symmetry.Literal

/-! # Values as documents

How values are shown. Words of 64 bits are shown as texts, because not every reader of numbers
keeps all of their digits; what is missing is null. -/
namespace CrystalModel

class Shown (α : Type) where
  shown : α → Document

export Shown (shown)

namespace Shown

instance : Shown Document := ⟨id⟩
instance : Shown Bool := ⟨.flag⟩
instance : Shown Nat := ⟨fun n => .integer n⟩
instance : Shown Int := ⟨.integer⟩
instance : Shown Int32 := ⟨fun n => .integer n.toInt⟩
instance : Shown UInt8 := ⟨fun n => .integer n.toNat⟩
instance : Shown UInt32 := ⟨fun n => .integer n.toNat⟩
instance : Shown Int64 := ⟨fun n => .text (toString n.toInt)⟩
instance : Shown UInt64 := ⟨fun n => .text (toString n.toNat)⟩
instance : Shown Float := ⟨.real⟩
instance : Shown String := ⟨.text⟩

variable {α β : Type}

instance [Shown α] : Shown (List α) := ⟨fun xs => .list (xs.map shown)⟩
instance [Shown α] : Shown (Option α) := ⟨fun x => (x.map shown).getD .null⟩
instance [Shown α] [Shown β] : Shown (α × β) := ⟨fun (a, b) => .list [shown a, shown b]⟩
instance [Shown α] : Shown (Vec3 α) := ⟨fun v => shown v.toList⟩
instance {n : Nat} [Shown α] : Shown (Vector α n) := ⟨fun v => shown v.toList⟩
instance : Shown Mat3 := ⟨fun m => shown m.rows⟩
instance : Shown CrystalVector := ⟨fun v => shown v.toList⟩

instance : Shown Ordering where
  shown
    | .lt => .integer (-1)
    | .eq => .integer 0
    | .gt => .integer 1

instance : Shown Operation := ⟨fun op => .table [("literal", shown op.literal),
  ("rotation", shown op.rotation), ("translation", shown op.shift)]⟩

end Shown

end CrystalModel
