import CrystalModel.Binary.Blob
import CrystalModel.Binary.Catalog
import CrystalModel.Numeric.Lists

/-! # Blob sets

The blobs of one simulation by their keys, and the check that they survive rereading. -/
namespace CrystalModel.Binary

abbrev BlobSet := Catalog Blob

namespace BlobSet

def totalBytes (s : BlobSet) : Nat := Numeric.total (s.values.map Blob.size)

/-- The records of a payload, written again, are the payload. -/
def checkRecords (α : Type) [Record α] (b : Blob) : Except FormatError Unit := do
  let records ← b.records α
  if records.flatMap Record.encode = b.payload then return ()
  else .error (.corruptHeader (.recordsDiffer (Record.name α)))

/-- A blob reads back as itself, and so do its records. -/
def checkBlob (b : Blob) : Except FormatError Unit := do
  let reread ← Blob.ofBytes b.toBytes
  if reread ≠ b then .error (.corruptHeader (.blobDiffers b.kind.name))
  else match b.kind with
    | .latticeInfo => checkRecords LatticeInfo b
    | .pairDefinitions => checkRecords PairDefinition b
    | .clusterDefinitions => checkRecords ClusterDefinition b
    | .particleTableBuffer => checkRecords ParticleBuffer b
    | .jumpDirections => checkRecords JumpDirection b
    | .jumpLinks => checkRecords JumpLink b
    | .moveVectors => checkRecords MoveVector b
    | .globalMoves => checkRecords MoveVector b
    | .jumpRules => checkRecords JumpRule b
    | .pairTable => .ok ()
    | .clusterTable => .ok ()
    | .occupationCodes => .ok ()
    | .jumpCounts => .ok ()
    | .jumpAssign => .ok ()

def verify (s : BlobSet) : Except FormatError Unit := s.values.forM checkBlob

end BlobSet

end CrystalModel.Binary
