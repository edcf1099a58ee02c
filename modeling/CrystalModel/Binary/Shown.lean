import CrystalModel.Binary.BlobSet
import CrystalModel.Binary.LittleEndian
import CrystalModel.Document.Shown

/-! # Records and blobs as documents

In texts a byte is two hexadecimal digits, the higher one first. -/
namespace CrystalModel.Binary

def hexDigit (n : Nat) : Char := Nat.digitChar (n % 16)

def hex (bytes : Bytes) : String :=
  String.ofList (bytes.flatMap fun b => [hexDigit (b.toNat / 16), hexDigit b.toNat])

def hexValue? (c : Char) : Option Nat :=
  if '0' ≤ c ∧ c ≤ '9' then some (c.toNat - '0'.toNat)
  else if 'a' ≤ c ∧ c ≤ 'f' then some (c.toNat - 'a'.toNat + 10)
  else if 'A' ≤ c ∧ c ≤ 'F' then some (c.toNat - 'A'.toNat + 10)
  else none

def unhex? : List Char → Option Bytes
  | [] => some []
  | high :: low :: rest => do
    let h ← hexValue? high
    let l ← hexValue? low
    return UInt8.ofNat (16 * h + l) :: (← unhex? rest)
  | [_] => none

instance : Shown Binary64 := ⟨fun b => .real b.toFloat⟩

instance : Shown JumpRule := ⟨fun r => .table [("start_state", shown r.startState),
  ("transition_state", shown r.transitionState), ("final_state", shown r.finalState),
  ("frequency_factor", shown r.frequencyFactor), ("field_factor", shown r.fieldFactor),
  ("static_correction", shown r.staticCorrection), ("tracker_order", shown r.trackers)]⟩

instance : Shown JumpLink :=
  ⟨fun r => .table [("path_id", shown r.pathId), ("link_id", shown r.linkId)]⟩

instance : Shown MoveVector := ⟨fun r => .table [("vector", shown r.vector),
  ("tracker_id", shown r.trackerId), ("padding", shown r.padding)]⟩

instance : Shown ArrayShape :=
  ⟨fun s => .table [("rank", shown s.rank), ("dimensions", shown s.dimensions)]⟩

instance : Shown LatticeInfo := ⟨fun r => .table [("size_vector", shown r.sizeVector),
  ("mobiles_count", shown r.mobilesCount), ("selectables_count", shown r.selectablesCount),
  ("lattice", shown r.lattice), ("background", shown r.background),
  ("padding", shown r.padding)]⟩

instance : Shown PairDefinition :=
  ⟨fun r => .table [("relative", shown r.relative), ("table_id", shown r.tableId)]⟩

instance : Shown ClusterDefinition :=
  ⟨fun r => .table [("pair_ids", shown r.pairIds), ("table_id", shown r.tableId)]⟩

instance : Shown JumpDirection := ⟨fun r => .table [("object_id", shown r.objectId),
  ("position_id", shown r.positionId), ("collection_id", shown r.collectionId),
  ("jump_length", shown r.jumpLength), ("field_projection", shown r.fieldProjection),
  ("sequence", shown r.sequence)]⟩

instance : Shown ParticleBuffer := ⟨fun r => .table [("entries", shown r.entries)]⟩

instance : Shown Header := ⟨fun h => .table [("kind", shown h.kind.name),
  ("tag", shown h.kind.tag), ("element_size", shown h.elementSize), ("rank", shown h.rank),
  ("count", shown h.count), ("index_skips", shown h.indexSkips), ("size", shown h.size),
  ("payload_size", shown h.payloadLength)]⟩

instance : Shown Blob := ⟨fun b => .table [("header", shown b.header),
  ("header_hex", shown (hex b.header.toBytes)), ("payload_hex", shown (hex b.payload)),
  ("dimensions", shown b.dimensions)]⟩

def BlobSet.hexTable (blobs : BlobSet) : Document :=
  .table (blobs.map fun (key, blob) =>
    (key, .list [shown (hex blob.header.toBytes), shown (hex blob.payload)]))

end CrystalModel.Binary
