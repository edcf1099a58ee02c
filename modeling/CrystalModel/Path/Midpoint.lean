import CrystalModel.Symmetry.Wyckoff

/-! # Intermediate positions

The midpoints between neighbours of a sequence, each with all its symmetry images. -/
namespace CrystalModel

def neighbours {α : Type} (xs : List α) : List (α × α) := xs.zip xs.tail

def midpointOrbits (s : Symmetry) (sequence : List Point) : List (List Point) :=
  (neighbours sequence).map fun (a, b) => s.orbit (Fractional.midpoint a b)

/-- Two sequences pass through the same intermediate positions, step by step. -/
def sameMidpoints (s : Symmetry) (first second : List Point) : Bool :=
  first.length == second.length &&
    ((midpointOrbits s first).zip (midpointOrbits s second)).all
      fun (a, b) => s.tolerance.closeSets a b

end CrystalModel
