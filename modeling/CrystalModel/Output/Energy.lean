import CrystalModel.Energy.Model
import CrystalModel.Output.Key

/-! # Blobs of energies

Every pair table, and every group table with its occupation codes and the rows of its center
particles. -/
namespace CrystalModel

open Binary (Codec Binary64 FormatError ParticleBuffer)

namespace EnergyTable

def blob (t : EnergyTable) (kind : Binary.BlobType) (id : Nat) : Except FormatError KeyedBlob :=
  KeyedBlob.ofTable Codec.binary64 kind (some id) [t.rowCount, t.columnCount]
    (t.rows.flatten.map Binary64.ofFloat)

end EnergyTable

namespace GroupTable

def rowBuffer (t : GroupTable) : ParticleBuffer :=
  t.centers.zipIdx.foldl (fun buffer (particle, row) => buffer.set particle (UInt8.ofNat row))
    .unused

def blobs (t : GroupTable) : Except FormatError (List KeyedBlob) := do
  let table ← t.table.blob .clusterTable t.modelId
  let codes ← KeyedBlob.ofTable Codec.int64 .occupationCodes (some t.modelId) [t.codes.length]
    t.codes
  return [table, codes, .ofRecords .particleTableBuffer (some t.modelId) [t.rowBuffer]]

end GroupTable

def Energetics.blobs (e : Energetics) : Except FormatError (List KeyedBlob) := do
  let pairs ← e.pairTables.mapM fun t => t.table.blob .pairTable t.modelId
  let groups ← e.groupTables.mapM GroupTable.blobs
  return pairs ++ groups.flatten

end CrystalModel
