import CrystalModel.Reference.Transition

/-! # Displacements of a connector pattern

How far along the path each particle moves, read off the connectors alone. -/
namespace CrystalModel

/-- Every particle in a run of dynamic connectors moves one position on, and the particle at
the end of the run moves back to its beginning. `run` counts the connectors of the run so
far. -/
def runDisplacements : Int → List Connector → List Int
  | run, [] => [-run]
  | run, .dynamic :: rest => 1 :: runDisplacements (run + 1) rest
  | run, .static :: rest => -run :: runDisplacements 0 rest

def bridge (displacements : List Int) (i : Nat) : List Int :=
  (displacements.modify (i - 1) (· + 1)).set i 0

/-- An unstable position behind a dynamic connector is bridged by the position before it. -/
def pathDisplacements (connectors : List Connector) (unstable : List Bool) : List Int :=
  connectors.zipIdx.foldl
    (fun displacements (connector, i) =>
      if unstable[i + 1]?.getD false && connector == .dynamic then bridge displacements (i + 1)
      else displacements)
    (runDisplacements 0 connectors)

end CrystalModel
