import CrystalModel.Reference.Validation
import CrystalModel.Simulation.Index
import CrystalModel.Structure.Model
import CrystalModel.Transition.Model

/-! # Building a simulation

Selects transitions, and lists their rules, their paths and who can take them. -/
namespace CrystalModel

namespace SimulationModel

variable [Trigonometry] [d : RandomSeeds]

def invalid (index : Nat) (fault : Fault) : BuildError := .invalid .simulation index fault

/-- The simulation to build: it takes part in builds, and its lattice and temperature are
positive. -/
def checked (r : ReferenceData) (index : Nat) : Except BuildError Simulation :=
  match r.simulations[index]?.filter (·.isActive) with
  | none => .error (invalid index .unknownSimulation)
  | some s =>
    if s.latticeSize.toList.any (· < 1) then .error (invalid index (.latticeSize s.latticeSize))
    else if s.temperature.isFinite && s.temperature > 0.0 then .ok s
    else .error (invalid index (.temperature s.temperature))

def available (r : ReferenceData) : SimulationKind → Nat
  | .kinetic => r.kineticTransitions.length
  | .metropolis => r.metropolisTransitions.length

/-- Adds the models of one listed transition that are not selected yet. -/
def select (r : ReferenceData) (t : TransitionNetwork) (s : Simulation) (index : Nat)
    (selected : List Nat) (transition : Nat) : Except BuildError (List Nat) :=
  if transition < available r s.kind then
    .ok (selected ++ (t.versionsOf s.kind transition).filter (!selected.contains ·))
  else .error (invalid index (.unknownTransition transition))

def selection (r : ReferenceData) (t : TransitionNetwork) (s : Simulation) (index : Nat) :
    Except BuildError (List Nat) := do
  let selected ← s.transitions.foldlM (select r t s index) []
  let id := fun number => (t.transitions[number]?.map (·.modelId)).getD 0
  return selected.mergeSort fun a b => id a ≤ id b

/-- The direction of the field in space; only kinetic simulations have one. -/
def fieldOf (structured : CrystalStructure) (s : Simulation) : Point :=
  match s.kind with
  | .kinetic => ((structured.encoder.cell.cartesian s.electricField).direction?
      structured.encoder.tolerance.width).getD Point.zero
  | .metropolis => Point.zero

def projection (structured : CrystalStructure) (field : Point) (m : Mapping) : Float :=
  match m.fractional.head?, m.fractional.getLast? with
  | some start, some finish => field.dot (structured.encoder.cell.cartesian (finish - start))
  | _, _ => 0.0

/-- The pair targets of every path position that lie elsewhere on the same path. -/
def pathLinks (structured : CrystalStructure) (path : List CrystalVector) : List PathLink :=
  path.zipIdx.flatMap fun (here, i) =>
    let targets :=
      (structured.cellPositions[here.p.toInt.toNat]?.map (·.targets)).getD []
    targets.zipIdx.filterMap fun (target, j) =>
      let landing := target.relative.shifted here.cell
      if path.zipIdx.any fun (other, k) => k != i && other == landing then some ⟨i, j⟩ else none

def collectionsOf (t : TransitionNetwork) (selected : List Nat) : List JumpCollection :=
  selected.zipIdx.filterMap fun (number, id) =>
    t.transitions[number]?.map fun model => ⟨id, number, model.mobileMask, model.rules⟩

def selectedMappings (t : TransitionNetwork) (selected : List Nat) :
    List (Nat × Nat × Mapping) :=
  selected.zipIdx.flatMap fun (number, collection) =>
    match t.transitions[number]? with
    | none => []
    | some model => model.mappings.filterMap fun mapping =>
      t.mappings[mapping]?.map fun m => (collection, mapping, m)

def directionsOf (structured : CrystalStructure) (t : TransitionNetwork) (field : Point)
    (selected : List Nat) : List JumpDirection :=
  (selectedMappings t selected).zipIdx.map fun ((collection, mapping, m), id) =>
    ⟨id, collection, mapping, m.start, projection structured field m,
      pathLinks structured m.path⟩

/-- A direction can be taken by the particles of its collection. -/
def entries (collections : List JumpCollection) (directions : List JumpDirection) :
    List JumpIndex.Entry :=
  directions.map fun d => ⟨d.id, d.position, (collections[d.collection]?.map (·.mask)).getD 0⟩

def ofSelection (r : ReferenceData) (config : Config) (structured : CrystalStructure)
    (t : TransitionNetwork) (index : Nat) (s : Simulation) (selected : List Nat) :
    Except BuildError (SimulationModel × List Issue) := do
  let (seed, issues) := s.seedWith config
  let field := fieldOf structured s
  let collections := collectionsOf t selected
  let directions := directionsOf structured t field selected
  let jumps := JumpIndex.ofEntries r.particles structured.positionTotal
    (entries collections directions)
  jumps.verify
  let frequencies := selected.filterMap fun number => t.transitions[number]?.map (·.frequency)
  return ({
    simulation := index
    name := s.name
    kind := s.kind
    seed
    temperature := s.temperature
    latticeSize := s.latticeSize
    targetSteps := s.targetSteps
    field
    fieldMagnitude := s.fieldMagnitude
    transitions := selected
    collections
    directions
    index := jumps
    maxFrequency := frequencies.foldl Numeric.greater 0.0 }, issues)

def build (r : ReferenceData) (config : Config) (structured : CrystalStructure)
    (t : TransitionNetwork) (index : Nat) : Except BuildError (SimulationModel × List Issue) := do
  let s ← checked r index
  let selected ← selection r t s index
  ofSelection r config structured t index s selected

end SimulationModel

end CrystalModel
