import CrystalModel.Reference.Shown
import CrystalModel.Simulation.Index

/-! # Simulations as documents -/
namespace CrystalModel

def Mobility.letter : Mobility → Char
  | .immobile => 'I'
  | .mobile => 'M'
  | .selectable => 'S'

namespace Shown

instance : Shown JumpCollection := ⟨fun c => .table [("id", shown c.id),
  ("transition", shown c.transition), ("mask", shown c.mask), ("rules", shown c.rules)]⟩

instance : Shown PathLink := ⟨fun l => shown [l.pathId, l.linkId]⟩

instance : Shown JumpDirection := ⟨fun d => .table [("id", shown d.id),
  ("collection", shown d.collection), ("mapping", shown d.mapping),
  ("position", shown d.position), ("projection", shown d.projection),
  ("links", shown d.links)]⟩

instance : Shown SimulationModel := ⟨fun s =>
  let assigned := (List.range s.index.counts.length).map fun position =>
    (List.range s.index.particleCount).map (s.index.assigned position)
  .table [("simulation", shown s.simulation), ("name", shown s.name), ("kind", shown s.kind),
    ("seed", shown s.seed), ("temperature", shown s.temperature),
    ("lattice_size", shown s.latticeSize), ("target_mcsp", shown s.targetSteps),
    ("field", shown s.field), ("field_magnitude", shown s.fieldMagnitude),
    ("max_frequency", shown s.maxFrequency), ("transitions", shown s.transitions),
    ("collections", shown s.collections), ("directions", shown s.directions),
    ("jump_count", shown s.index.counts),
    ("max_directions", shown s.index.maxDirections),
    ("assigned", shown assigned),
    ("mobility", shown (s.index.mobilities.map fun row => String.ofList (row.map (·.letter)))),
    ("selection_masks", shown s.index.selectionMasks)]⟩

end Shown

end CrystalModel
