import CrystalModel.Build.Config
import CrystalModel.Energy.Model
import CrystalModel.Structure.Model

/-! # Pair tables -/
namespace CrystalModel

namespace PairInteraction

/-- The cells an authored energy belongs to, by center and partner: the order of the particles
is that of the interaction, seen from its other end when `inverted`, and for symmetric energies
also the opposite one. -/
def cells (i : PairInteraction) (inverted : Bool) (entry : PairEnergy) : List (Nat × Nat) :=
  let cell := if inverted then (entry.partner, entry.center) else (entry.center, entry.partner)
  match i.kind with
  | .symmetric => [cell, (cell.2, cell.1)]
  | .asymmetric => [cell]

def assignEntry (i : PairInteraction) (inverted : Bool) (particleCount : Nat) (width : Float)
    (table : EnergyTable) (entry : PairEnergy) : Except Fault EnergyTable :=
  if entry.center < particleCount ∧ entry.partner < particleCount then
    (i.cells inverted entry).foldlM
      (fun table (row, column) => table.assign width row column entry.energy) table
  else .error (.unknownEntryParticle entry.center entry.partner)

def table (i : PairInteraction) (inverted : Bool) (particleCount : Nat) (width : Float) :
    Except Fault EnergyTable :=
  i.energies.foldlM (i.assignEntry inverted particleCount width)
    (.empty particleCount particleCount)

end PairInteraction

def pairEnergies (r : ReferenceData) (config : Config) (model : PairModel) :
    Except BuildError PairTable :=
  match r.pairInteractions[model.interaction]? with
  | none => .error (.invalid .pairInteraction model.interaction .noSuchInteraction)
  | some i =>
    match i.table model.inverted r.particles.length config.energyTolerance with
    | .error fault => .error (.invalid .pairInteraction i.index fault)
    | .ok table => .ok ⟨model.modelId, i.index, i.kind, model.inverted, table⟩

end CrystalModel
