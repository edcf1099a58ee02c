import CrystalModel.Build.Config
import CrystalModel.Energy.Model
import CrystalModel.Numeric.Lists
import CrystalModel.Rule.Generate
import CrystalModel.Structure.Model
import CrystalModel.Symmetry.Projection

/-! # Group tables

The rows are the particles of the center, the columns the occupations of the partners. An
authored energy holds for all occupations that the site symmetry of the center makes of its
own. -/
namespace CrystalModel

def ReferenceData.occupantsOf (r : ReferenceData) (site : Nat) : List Nat :=
  match r.sites[site]?.bind fun s => r.particleSets[s.occupation]? with
  | none => []
  | some set => Numeric.ascending (set.particles.filter fun p =>
      (r.particles[p]?.map (·.isActive)).getD false)

structure GroupLayout where
  centers : List Nat
  codes : List Int64
  orders : List (List Nat)
deriving DecidableEq, Repr

namespace GroupLayout

def codesOf (particles : List (List Nat)) : List Int64 :=
  Numeric.ascending
    ((choices (particles.map fun ps => ps.map UInt8.ofNat)).map stateCode)

/-- The occupation after every particle has moved to the place that the order gives it. -/
def permuted (order : List Nat) (occupation : List Nat) : PathState :=
  (order.zip occupation).foldl (fun state (place, particle) =>
    state.set place (UInt8.ofNat particle)) (List.replicate occupation.length voidByte)

/-- Assigns an authored energy to the cell of one order. -/
def assignOrder (l : GroupLayout) (width : Float) (entry : GroupEnergy) (row : Nat)
    (table : EnergyTable) (order : List Nat) : Except Fault EnergyTable :=
  match l.codes.idxOf? (stateCode (permuted order entry.occupation)) with
  | none => .error (.forbiddenOccupation entry.occupation)
  | some column => table.assign width row column entry.energy

def assignEntry (l : GroupLayout) (width : Float) (partners : Nat) (table : EnergyTable)
    (entry : GroupEnergy) : Except Fault EnergyTable :=
  if entry.occupation.length ≠ partners then
    .error (.occupationLength entry.occupation.length partners)
  else match l.centers.idxOf? entry.center with
    | none => .error (.forbiddenCenter entry.center)
    | some row => l.orders.foldlM (l.assignOrder width entry row) table

end GroupLayout

namespace GroupInteraction

def partnerParticles (r : ReferenceData) (s : CrystalStructure) (partner : Point) :
    Except Fault (List Nat) :=
  match s.encoder.encode partner with
  | none => .error (.partnerOffLattice partner)
  | some v => .ok (r.occupantsOf ((CrystalStructure.siteAt s.positionSites v).getD 0))

def layout (i : GroupInteraction) (r : ReferenceData) (s : CrystalStructure) :
    Except Fault GroupLayout :=
  match r.sites[i.centerSite]? with
  | none => .error (.unknownCenterSite i.centerSite)
  | some site => do
    let particles ← i.geometry.mapM (partnerParticles r s)
    return ⟨r.occupantsOf i.centerSite, GroupLayout.codesOf particles,
      s.symmetry.sitePermutations site.vector i.geometry⟩

def table (i : GroupInteraction) (l : GroupLayout) (width : Float) : Except Fault EnergyTable :=
  i.energies.foldlM (l.assignEntry width i.geometry.length)
    (.empty l.centers.length l.codes.length)

end GroupInteraction

def groupEnergies (r : ReferenceData) (config : Config) (s : CrystalStructure)
    (model : GroupModel) : Except BuildError GroupTable :=
  match r.groupInteractions[model.interaction]? with
  | none => .error (.invalid .groupInteraction model.interaction .noSuchInteraction)
  | some i =>
    let outcome : Except Fault GroupTable := do
      let l ← i.layout r s
      let table ← i.table l config.energyTolerance
      return ⟨model.modelId, i.index, l.centers, l.codes, table⟩
    outcome.mapError (.invalid .groupInteraction i.index)

end CrystalModel
