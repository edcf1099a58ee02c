import CrystalModel.Simulation.Model
import CrystalModel.Transition.Model
import CrystalModel.Output.Definition

/-! # Blobs of jumps

Directions with their links and moves, the rules of every collection, and the jump index. -/
namespace CrystalModel

open Binary (Codec Binary64 FormatError JumpLink MoveVector)

def moveRecord (v : Point) (tracker : Nat) : MoveVector :=
  ⟨#v[.ofResult v.x, .ofResult v.y, .ofResult v.z], Int32.ofNat tracker, Vector.replicate 4 0⟩

/-- The path of a direction; unused places are zero. -/
def pathSequence (path : List CrystalVector) : Vector (Vector Int32 4) 8 :=
  Vector.ofFn fun i => (path[i.val]?.map (·.toVector)).getD (Vector.replicate 4 0)

namespace JumpDirection

def record (d : JumpDirection) (m : Mapping) : Binary.JumpDirection where
  objectId := Int32.ofNat d.id
  positionId := Int32.ofNat d.position
  collectionId := Int32.ofNat d.collection
  jumpLength := Int32.ofNat m.path.length
  fieldProjection := .ofResult d.projection
  sequence := pathSequence m.path

def linkRecords (d : JumpDirection) : List JumpLink :=
  d.links.map fun l => ⟨Int32.ofNat l.pathId, Int32.ofNat l.linkId⟩

def blobs (d : JumpDirection) (m : Mapping) : List KeyedBlob :=
  [.ofRecords .jumpLinks (some d.id) d.linkRecords,
    .ofRecords .moveVectors (some d.id)
      (m.movement.zipIdx.map fun (v, tracker) => moveRecord v tracker)]

end JumpDirection

namespace LinkedRule

/-- The frequency relative to the greatest one of the simulation. -/
def frequencyFactor (r : LinkedRule) (kind : SimulationKind) (greatest : Float) : Float :=
  match kind with
  | .metropolis => 1.0
  | .kinetic => if greatest > 0.0 then r.frequency / greatest else 0.0

def record (r : LinkedRule) (kind : SimulationKind) (greatest : Float) : Binary.JumpRule where
  startState := r.startCode
  transitionState := r.transitionCode
  finalState := r.finalCode
  frequencyFactor := .ofResult (r.frequencyFactor kind greatest)
  fieldFactor := .ofResult r.fieldFactor
  staticCorrection := .ofFloat 0.0
  trackers := Vector.ofFn fun i => r.rule.trackerBytes[i.val]?.getD 0

end LinkedRule

namespace JumpIndex

def blobs (index : JumpIndex) : Except FormatError (List KeyedBlob) := do
  let positions := index.counts.length
  let counts ← KeyedBlob.ofTable Codec.int32 .jumpCounts none [positions, index.particleCount]
    index.counts.flatten
  let assigned ← KeyedBlob.ofTable Codec.int32 .jumpAssign none
    [positions, index.particleCount, index.maxDirections] index.assignments
  return [counts, assigned]

end JumpIndex

namespace SimulationModel

def mappedDirections (s : SimulationModel) (t : TransitionNetwork) :
    List (JumpDirection × Mapping) :=
  s.directions.filterMap fun d => t.mappings[d.mapping]?.map fun m => (d, m)

def directionBlobs (s : SimulationModel) (t : TransitionNetwork) : List KeyedBlob :=
  let mapped := s.mappedDirections t
  [.ofRecords .jumpDirections none (mapped.map fun (d, m) => d.record m)] ++
    mapped.flatMap (fun (d, m) => d.blobs m) ++
    [.ofRecords .globalMoves none (mapped.map fun (d, m) => moveRecord m.globalMovement d.id)]

def ruleBlobs (s : SimulationModel) (t : TransitionNetwork) : List KeyedBlob :=
  s.collections.map fun collection =>
    .ofRecords .jumpRules (some collection.id)
      ((collection.rules.filterMap (t.rules[·]?)).map (·.record s.kind s.maxFrequency))

def blobsOfJumps (s : SimulationModel) (t : TransitionNetwork) :
    Except FormatError (List KeyedBlob) := do
  return s.directionBlobs t ++ s.ruleBlobs t ++ (← s.index.blobs)

end SimulationModel

end CrystalModel
