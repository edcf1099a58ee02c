import CrystalModel.Binary.Record

/-! # Blobs

A header followed by a payload of equal elements: either records, or a row-major table of
plain values whose shape the header keeps. -/
namespace CrystalModel.Binary

inductive BlobType where
  | latticeInfo
  | pairDefinitions
  | clusterDefinitions
  | pairTable
  | clusterTable
  | occupationCodes
  | particleTableBuffer
  | jumpDirections
  | jumpLinks
  | moveVectors
  | globalMoves
  | jumpRules
  | jumpCounts
  | jumpAssign
deriving DecidableEq, Repr

namespace BlobType

def all : List BlobType :=
  [latticeInfo, pairDefinitions, clusterDefinitions, pairTable, clusterTable, occupationCodes,
    particleTableBuffer, jumpDirections, jumpLinks, moveVectors, globalMoves, jumpRules,
    jumpCounts, jumpAssign]

def tag : BlobType → UInt32
  | latticeInfo => 1
  | pairDefinitions => 2
  | clusterDefinitions => 3
  | pairTable => 4
  | clusterTable => 5
  | occupationCodes => 6
  | particleTableBuffer => 7
  | jumpDirections => 8
  | jumpLinks => 9
  | moveVectors => 10
  | globalMoves => 11
  | jumpRules => 12
  | jumpCounts => 13
  | jumpAssign => 14

def ofTag (tag : UInt32) : Except FormatError BlobType :=
  match all.find? (·.tag == tag) with
  | some kind => .ok kind
  | none => .error (.unknownTag tag)

def name : BlobType → String
  | latticeInfo => "lattice-info"
  | pairDefinitions => "pair-definitions"
  | clusterDefinitions => "cluster-definitions"
  | pairTable => "pair-table"
  | clusterTable => "cluster-table"
  | occupationCodes => "occupation-codes"
  | particleTableBuffer => "particle-table-buffer"
  | jumpDirections => "jump-directions"
  | jumpLinks => "jump-links"
  | moveVectors => "move-vectors"
  | globalMoves => "global-moves"
  | jumpRules => "jump-rules"
  | jumpCounts => "jump-counts"
  | jumpAssign => "jump-assign"

end BlobType

structure Header where
  kind : BlobType
  elementSize : Int32
  rank : Int32
  count : Int32
  indexSkips : List Int32
deriving DecidableEq, Repr

namespace Header

def leadSize : Nat := 16

def size (h : Header) : Nat := leadSize + 4 * h.indexSkips.length

def payloadLength (h : Header) : Nat := h.elementSize.toInt.toNat * h.count.toInt.toNat

def toBytes (h : Header) : Bytes :=
  Codec.uint32.write h.kind.tag ++ Codec.int32.write h.elementSize ++ Codec.int32.write h.rank ++
    Codec.int32.write h.count ++ h.indexSkips.flatMap Codec.int32.write

def fieldAt (bytes : Bytes) (offset : Nat) : Except FormatError Bytes :=
  let field := (bytes.drop offset).take 4
  if field.length = 4 then .ok field else .error (.corruptHeader (.truncated offset))

def int32At (bytes : Bytes) (offset : Nat) : Except FormatError Int32 :=
  (fieldAt bytes offset).map Codec.int32.read

def skipsAt (bytes : Bytes) : Nat → Nat → Except FormatError (List Int32)
  | 0, _ => .ok []
  | n + 1, offset => do
    let skip ← int32At bytes offset
    let skips ← skipsAt bytes n (offset + 4)
    return skip :: skips

/-- Rank and element size are positive and the count is not negative. -/
def ofBytes (bytes : Bytes) : Except FormatError Header := do
  let kind ← BlobType.ofTag (Codec.uint32.read (← fieldAt bytes 0))
  let elementSize ← int32At bytes 4
  let rank ← int32At bytes 8
  let count ← int32At bytes 12
  if rank < 1 ∨ elementSize < 1 ∨ count < 0 then
    .error (.corruptHeader (.fields rank elementSize count))
  else
    let indexSkips ← skipsAt bytes (rank.toInt.toNat - 1) leadSize
    return ⟨kind, elementSize, rank, count, indexSkips⟩

end Header

structure Blob where
  header : Header
  payload : Bytes
deriving DecidableEq, Repr

namespace Blob

def kind (b : Blob) : BlobType := b.header.kind

def size (b : Blob) : Nat := b.header.size + b.payload.length

def toBytes (b : Blob) : Bytes := b.header.toBytes ++ b.payload

def ofBytes (bytes : Bytes) : Except FormatError Blob := do
  let header ← Header.ofBytes bytes
  let expected := header.size + header.payloadLength
  if bytes.length = expected then return ⟨header, bytes.drop header.size⟩
  else .error (.lengthMismatch expected bytes.length)

def ofRecords {α : Type} [Record α] (kind : BlobType) (records : List α) : Blob where
  header := ⟨kind, Int32.ofNat (Record.size α), 1, Int32.ofNat records.length, []⟩
  payload := records.flatMap Record.encode

/-- A product of sizes, kept in a 64-bit word. -/
def product (dimensions : List Nat) : Nat := dimensions.foldl (· * ·) 1 % UInt64.size

def skips : List Nat → List Int32
  | [] => []
  | [_] => []
  | _ :: d :: rest => Int32.ofNat (product (d :: rest)) :: skips (d :: rest)

/-- A row-major table of the given dimensions. -/
def ofTable {α : Type} (codec : Codec α) (kind : BlobType) (dimensions : List Nat)
    (values : List α) : Except FormatError Blob :=
  let count := product dimensions
  if dimensions.isEmpty ∨ count ≠ values.length then
    .error (.lengthMismatch count values.length)
  else .ok {
    header := ⟨kind, Int32.ofNat codec.width, Int32.ofNat dimensions.length, Int32.ofNat count,
      skips dimensions⟩
    payload := values.flatMap codec.write }

def holds (b : Blob) (width : Nat) : Except FormatError Unit :=
  if b.header.elementSize.toInt = width then .ok ()
  else .error (.elementMismatch b.kind.name width)

def values {α : Type} (codec : Codec α) (b : Blob) : Except FormatError (List α) := do
  b.holds codec.width
  return (chunks codec.width b.payload).map codec.read

def records (α : Type) [Record α] (b : Blob) : Except FormatError (List α) := do
  b.holds (Record.size α)
  (chunks (Record.size α) b.payload).mapM (Record.decode α)

/-- The dimensions of a table, regained from its count and index skips. -/
def dimensions (b : Blob) : List Nat :=
  let count := b.header.count.toInt.toNat
  let skips := b.header.indexSkips.map (·.toInt.toNat)
  match skips.getLast? with
  | none => [count]
  | some last => (count :: skips).zipWith (· / ·) skips ++ [last]

end Blob

end CrystalModel.Binary
