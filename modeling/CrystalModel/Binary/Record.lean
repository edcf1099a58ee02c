import CrystalModel.Binary.Codec
import CrystalModel.Binary.Error

/-! # Records

The fixed-size records of the simulation tables. Every record is its fields one behind the
other, without gaps. -/
namespace CrystalModel.Binary

structure JumpRule where
  startState : Int64
  transitionState : Int64
  finalState : Int64
  frequencyFactor : Binary64
  fieldFactor : Binary64
  staticCorrection : Binary64
  trackers : Vector UInt8 8
deriving DecidableEq

structure JumpLink where
  pathId : Int32
  linkId : Int32
deriving DecidableEq

structure MoveVector where
  vector : Vector Binary64 3
  trackerId : Int32
  padding : Vector UInt8 4
deriving DecidableEq

structure ArrayShape where
  rank : Int32
  dimensions : Vector Int32 4
deriving DecidableEq

/-- Lengths past the fourth are left out. -/
def ArrayShape.of (dimensions : List Int32) : ArrayShape :=
  ⟨Int32.ofNat (min dimensions.length 4), Vector.ofFn fun i => dimensions[i.val]?.getD 0⟩

/-- Supercell size, counts of mobile and selectable positions, and the shapes of the lattice
and of its background. -/
structure LatticeInfo where
  sizeVector : Vector Int32 4
  mobilesCount : Int32
  selectablesCount : Int32
  lattice : ArrayShape
  background : ArrayShape
  padding : Vector UInt8 8
deriving DecidableEq

structure PairDefinition where
  relative : Vector Int32 4
  tableId : Int32
deriving DecidableEq

structure ClusterDefinition where
  pairIds : Vector Int32 8
  tableId : Int32
deriving DecidableEq

/-- The path is relative to its start; unused places are zero. -/
structure JumpDirection where
  objectId : Int32
  positionId : Int32
  collectionId : Int32
  jumpLength : Int32
  fieldProjection : Binary64
  sequence : Vector (Vector Int32 4) 8
deriving DecidableEq

structure ParticleBuffer where
  entries : Vector UInt8 64
deriving DecidableEq

namespace ParticleBuffer

/-- Marks a particle without a row. -/
def unusedEntry : UInt8 := 0xFF

def unused : ParticleBuffer := ⟨Vector.replicate 64 unusedEntry⟩

def set (b : ParticleBuffer) (place : Nat) (row : UInt8) : ParticleBuffer :=
  ⟨b.entries.setIfInBounds place row⟩

end ParticleBuffer

/-- A record type with its contracted name and form. -/
class Record (α : Type) where
  name : String
  codec : Codec α

namespace Record

open Codec

instance : Record JumpRule where
  name := "jump rule"
  codec := (int64.pair (int64.pair (int64.pair (binary64.pair (binary64.pair (binary64.pair
    (vector 8 byte))))))).map
    (fun (s, t, f, q, e, c, o) => ⟨s, t, f, q, e, c, o⟩)
    (fun r => (r.startState, r.transitionState, r.finalState, r.frequencyFactor, r.fieldFactor,
      r.staticCorrection, r.trackers))

instance : Record JumpLink where
  name := "jump link"
  codec := (int32.pair int32).map (fun (p, l) => ⟨p, l⟩) (fun r => (r.pathId, r.linkId))

instance : Record MoveVector where
  name := "move vector"
  codec := ((vector 3 binary64).pair (int32.pair (vector 4 byte))).map
    (fun (v, t, p) => ⟨v, t, p⟩) (fun r => (r.vector, r.trackerId, r.padding))

def arrayShape : Codec ArrayShape :=
  (int32.pair (vector 4 int32)).map (fun (r, d) => ⟨r, d⟩) (fun s => (s.rank, s.dimensions))

instance : Record LatticeInfo where
  name := "lattice info"
  codec := ((vector 4 int32).pair (int32.pair (int32.pair (arrayShape.pair (arrayShape.pair
    (vector 8 byte)))))).map
    (fun (v, m, s, l, b, p) => ⟨v, m, s, l, b, p⟩)
    (fun r => (r.sizeVector, r.mobilesCount, r.selectablesCount, r.lattice, r.background,
      r.padding))

instance : Record PairDefinition where
  name := "pair definition"
  codec := ((vector 4 int32).pair int32).map (fun (r, t) => ⟨r, t⟩)
    (fun r => (r.relative, r.tableId))

instance : Record ClusterDefinition where
  name := "cluster definition"
  codec := ((vector 8 int32).pair int32).map (fun (r, t) => ⟨r, t⟩)
    (fun r => (r.pairIds, r.tableId))

instance : Record JumpDirection where
  name := "jump direction"
  codec := (int32.pair (int32.pair (int32.pair (int32.pair (binary64.pair
    (vector 8 (vector 4 int32))))))).map
    (fun (o, p, c, l, f, s) => ⟨o, p, c, l, f, s⟩)
    (fun r => (r.objectId, r.positionId, r.collectionId, r.jumpLength, r.fieldProjection,
      r.sequence))

instance : Record ParticleBuffer where
  name := "particle buffer"
  codec := (vector 64 byte).map (fun e => ⟨e⟩) (fun r => r.entries)

variable {α : Type} [Record α]

def size (α : Type) [Record α] : Nat := (codec (α := α)).width

def encode (r : α) : Bytes := codec.write r

/-- Any bytes of the contracted number are a record. -/
def decode (α : Type) [Record α] (bytes : Bytes) : Except FormatError α :=
  if bytes.length = size α then .ok (codec.read bytes)
  else .error (.sizeContract (name α) (size α) bytes.length)

end Record

end CrystalModel.Binary
