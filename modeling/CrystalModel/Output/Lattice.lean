import CrystalModel.Binary.Record
import CrystalModel.Simulation.Model
import CrystalModel.Structure.Model
import CrystalModel.Build.Error

/-! # Lattice sizes

The counts of a whole supercell. A count that does not fit into 32 bits ends the build. -/
namespace CrystalModel

open Binary (ArrayShape LatticeInfo)

def fitted? (n : Int) : Option Int32 :=
  if Int32.minValue.toInt ≤ n ∧ n ≤ Int32.maxValue.toInt then some (Int32.ofInt n) else none

def product? (a b : Int32) : Option Int32 := fitted? (a.toInt * b.toInt)

namespace JumpIndex

def mobilePositions (index : JumpIndex) : Nat :=
  index.mobilities.countP (·.any (· != .immobile))

def selectablePositions (index : JumpIndex) : Nat :=
  index.selectionMasks.countP (· != 0)

end JumpIndex

namespace SimulationModel

def counted (s : SimulationModel) (what : String) (count : Option Int32) :
    Except BuildError Int32 :=
  match count with
  | some n => .ok n
  | none => .error (.invalid .simulation s.simulation (.countTooLarge what s.latticeSize))

def latticeRecord (s : SimulationModel) (structured : CrystalStructure) :
    Except BuildError LatticeInfo := do
  let ⟨a, b, c⟩ := s.latticeSize
  let positions ← s.counted "position count" (fitted? structured.positionTotal)
  let cells ← s.counted "cell count" ((product? a b).bind (product? · c))
  let mobiles ← s.counted "mobile count"
    (product? cells (Int32.ofNat s.index.mobilePositions))
  let selectables ← s.counted "selectable count"
    (product? cells (Int32.ofNat s.index.selectablePositions))
  return {
    sizeVector := #v[a, b, c, positions]
    mobilesCount := mobiles
    selectablesCount := selectables
    lattice := ArrayShape.of [a, b, c, positions]
    background := ArrayShape.of [positions, Int32.ofNat s.index.particleCount]
    padding := Vector.replicate 8 0 }

end SimulationModel

end CrystalModel
