import CrystalModel.Energy.Build
import CrystalModel.Simulation.Build
import CrystalModel.Structure.Build
import CrystalModel.Transition.Build

/-! # The models of one pass

The results of the stages so far. Every stage names the stages it needs, and fails when one of
them is missing. -/
namespace CrystalModel

structure StageResults where
  structured : Option CrystalStructure
  energy : Option Energetics
  transition : Option TransitionNetwork
  simulations : List SimulationModel
deriving DecidableEq

namespace StageResults

variable [Trigonometry] [d : RandomSeeds]

def empty : StageResults := ⟨none, none, none, []⟩

/-- Whether the stage of a name has been built. Other names stand for no stage. -/
def has (c : StageResults) (stage : String) : Bool :=
  if stage = Stage.structural.name then c.structured.isSome
  else if stage = Stage.energy.name then c.energy.isSome
  else if stage = Stage.transition.name then c.transition.isSome
  else false

/-- The first stage that is missing ends the build of the requested one. -/
def require (c : StageResults) (requested : String) (stages : List String) :
    Except BuildError Unit :=
  stages.forM fun stage =>
    if c.has stage then .ok () else .error (.missingContext stage requested)

def result {α : Type} (stage : Stage) (built : Option α) : Except BuildError α :=
  match built with
  | some a => .ok a
  | none => .error (.missingContext stage.name stage.name)

def structureResult (c : StageResults) : Except BuildError CrystalStructure :=
  result .structural c.structured

def energyResult (c : StageResults) : Except BuildError Energetics := result .energy c.energy

def transitionResult (c : StageResults) : Except BuildError TransitionNetwork :=
  result .transition c.transition

def simulation? (c : StageResults) (index : Nat) : Option SimulationModel :=
  c.simulations.find? (·.simulation == index)

def buildEnergy (c : StageResults) (r : ReferenceData) (config : Config) :
    Except BuildError Energetics := do
  Energetics.build r config (← c.structureResult)

def buildTransition (c : StageResults) (r : ReferenceData) (config : Config) :
    Except BuildError TransitionNetwork := do
  c.require Stage.transition.name [Stage.structural.name, Stage.energy.name]
  TransitionNetwork.build r config (← c.structureResult)

def buildSimulation (c : StageResults) (r : ReferenceData) (config : Config) (index : Nat) :
    Except BuildError (SimulationModel × List Issue) := do
  c.require Stage.simulation.name
    [Stage.structural.name, Stage.energy.name, Stage.transition.name]
  SimulationModel.build r config (← c.structureResult) (← c.transitionResult) index

def activeSimulations (r : ReferenceData) : List Nat :=
  (r.simulations.filter (·.isActive)).map (·.index)

def buildSimulations (c : StageResults) (r : ReferenceData) (config : Config) :
    Except BuildError (List SimulationModel × List Issue) := do
  let built ← (activeSimulations r).mapM (c.buildSimulation r config)
  return (built.map (·.1), built.flatMap (·.2))

end StageResults

end CrystalModel
