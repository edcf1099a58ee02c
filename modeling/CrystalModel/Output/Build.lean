import CrystalModel.Build.Results
import CrystalModel.Path.Ring
import CrystalModel.Output.Energy
import CrystalModel.Output.Jump
import CrystalModel.Output.Lattice

/-! # Output

From the models of a simulation to its blobs. -/
namespace CrystalModel

/-- No direction of a simulation comes back to one of its own positions. -/
def SimulationModel.checkPaths (s : SimulationModel) (t : TransitionNetwork) :
    Except BuildError Unit :=
  (s.mappedDirections t).forM fun (_, m) =>
    if isCrystalRing m.path then
      .error (.ring ((t.transitions[m.transition]?.map (·.reference)).getD 0))
    else .ok ()

def StageResults.blobs (c : StageResults) (s : SimulationModel) :
    Except BuildError Binary.BlobSet := do
  c.require Stage.encoding.name
    [Stage.structural.name, Stage.energy.name, Stage.transition.name]
  let structured ← c.structureResult
  let energy ← c.energyResult
  let transition ← c.transitionResult
  s.checkPaths transition
  let info ← s.latticeRecord structured
  let energies ← energy.blobs.mapError .format
  let jumps ← (s.blobsOfJumps transition).mapError .format
  return KeyedBlob.toSet s.simulation
    ([.ofRecords .latticeInfo none [info]] ++ structured.blobs ++ energies ++ jumps)

def verifyBlobs (set : Binary.BlobSet) : Except BuildError Unit :=
  (Binary.BlobSet.verify set).mapError .format

end CrystalModel
