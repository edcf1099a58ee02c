import CrystalModel.Build.Event
import CrystalModel.Sink.Basic
import CrystalModel.Output.Build

/-! # Build passes

A pass validates reference data, builds all stages and encodes every simulation that takes
part. Either the whole pass succeeds, or it ends with its first error. -/
namespace CrystalModel

def countBlobs (blobs : List (Nat × Binary.BlobSet)) : Nat :=
  Numeric.total (blobs.map fun (_, set) => set.length)

/-- The result of a pass: the models, and the blobs of every simulation by its index. -/
structure BuildResult where
  context : StageResults
  blobs : List (Nat × Binary.BlobSet)
  issues : List Issue
deriving DecidableEq

namespace BuildResult

def totalBytes (m : BuildResult) : Nat :=
  Numeric.total (m.blobs.map fun (_, set) => set.totalBytes)

def blobCount (m : BuildResult) : Nat := countBlobs m.blobs

end BuildResult

namespace Pass

variable [Trigonometry] [d : RandomSeeds]

/-- One simulation after the other; what is noted about them is reported at the end. The first
error and the order of the events are those of a sequential build. Where simulations are built in
parallel another one of them may fail first, and their events may come in another order. -/
def simulations (c : StageResults) (r : ReferenceData) (config : Config) :
    Pass (List SimulationModel) := do
  let built ← (StageResults.activeSimulations r).mapM fun index => do
    report (.simulation index)
    c.buildSimulation r config index
  warn (built.flatMap (·.2))
  return built.map (·.1)

def keyedBlobs (c : StageResults) (config : Config) (s : SimulationModel) :
    Except BuildError (Nat × Binary.BlobSet) := do
  let set ← c.blobs s
  if config.verifyOutput then verifyBlobs set
  return (s.simulation, set)

def allBlobs (c : StageResults) (config : Config) :
    Except BuildError (List (Nat × Binary.BlobSet)) :=
  c.simulations.mapM (keyedBlobs c config)

def allStages (r : ReferenceData) (config : Config) :
    Pass (StageResults × List (Nat × Binary.BlobSet)) := do
  stage .validation (fun _ => r.issues.length) (warn r.issues)
  let structured ← stage .structural
    (fun s => s.pairModels.length + s.groupModels.length)
    (liftExcept (CrystalStructure.build r config))
  let c := { StageResults.empty with structured := some structured }
  let energy ← stage .energy (fun e => e.pairTables.length + e.groupTables.length)
    (liftExcept (c.buildEnergy r config))
  let c := { c with energy := some energy }
  let transition ← stage .transition (fun t => t.transitions.length)
    (liftExcept (c.buildTransition r config))
  let c := { c with transition := some transition }
  let simulations ← stage .simulation List.length (simulations c r config)
  let c := { c with simulations }
  let blobs ← stage .encoding countBlobs (liftExcept (allBlobs c config))
  return (c, blobs)

end Pass

def compile [Trigonometry] [d : RandomSeeds] (r : ReferenceData) (config : Config) :
    Except Failure BuildResult × List Event :=
  match (Pass.allStages r config).run.run .empty with
  | (.ok (context, blobs), log) => (.ok ⟨context, blobs, log.warnings⟩, log.events)
  | (.error error, log) => (.error ⟨error, log.warnings⟩, log.events)

/-- The blobs of a finished pass go to a sink, which is committed when all of them are stored
and aborted otherwise. -/
def persist {σ : Type} [Sink σ] (m : BuildResult) (sink : σ) :
    Except Failure BuildResult × σ :=
  match Sink.publish sink (m.blobs.map (·.2)) with
  | (.ok (), sink) => (.ok m, sink)
  | (.error failure, sink) => (.error ⟨.sink failure.key, m.issues⟩, Sink.abort sink)

/-- A pass whose blobs go to a sink. A failed pass leaves the sink alone. -/
def compileTo {σ : Type} [Trigonometry] [d : RandomSeeds] [Sink σ] (r : ReferenceData)
    (config : Config) (sink : σ) :
    Except Failure BuildResult × List Event × σ :=
  match compile r config with
  | (.error failure, events) => (.error failure, events, sink)
  | (.ok m, events) =>
    match persist m sink with
    | (.error failure, sink) => (.error failure, events ++ [.start .persistence], sink)
    | (.ok m, sink) =>
      (.ok m, events ++ [.start .persistence, .finish .persistence m.blobCount], sink)

end CrystalModel
