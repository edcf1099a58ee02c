import CrystalModel.Geometry.Closeness
import CrystalModel.Geometry.Crystal

/-! # Rings

A path is a ring when it comes back to one of its own positions. -/
namespace CrystalModel

/-- Whether the running sum of the steps comes back to zero. -/
def returns {α : Type} [Add α] [Sub α] (isZero : α → Bool) (sum : α) : List α → Bool
  | here :: next :: rest =>
    let sum := sum + (next - here)
    isZero sum || returns isZero sum (next :: rest)
  | _ => false

def revisits {α : Type} [Add α] [Sub α] (isZero : α → Bool) (zero : α) : List α → Bool
  | [] => false
  | here :: rest => returns isZero zero (here :: rest) || revisits isZero zero rest

def isRing (t : Tolerance) (path : List Point) : Bool :=
  revisits t.isZeroPoint Point.zero path

def CrystalVector.zero : CrystalVector := ⟨0, 0, 0, 0⟩

def isCrystalRing (path : List CrystalVector) : Bool :=
  revisits (· == CrystalVector.zero) .zero path

end CrystalModel
