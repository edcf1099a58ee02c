import CrystalModel.Binary.BlobSet

/-! # Keys of blobs

A blob is known by its simulation, its kind, and the number of the position, table, direction or
collection it belongs to, if it belongs to one. -/
namespace CrystalModel

def keyText (simulation : Nat) (kind : Binary.BlobType) (id : Option Nat) : String :=
  s!"sim{simulation}/" ++ kind.name ++
    match id with
    | some id => s!"/{id}"
    | none => ""

structure KeyedBlob where
  kind : Binary.BlobType
  id : Option Nat
  blob : Binary.Blob
deriving DecidableEq, Repr

namespace KeyedBlob

def ofRecords {α : Type} [Binary.Record α] (kind : Binary.BlobType) (id : Option Nat)
    (records : List α) : KeyedBlob :=
  ⟨kind, id, .ofRecords kind records⟩

def ofTable {α : Type} (codec : Binary.Codec α) (kind : Binary.BlobType) (id : Option Nat)
    (dimensions : List Nat) (values : List α) : Except Binary.FormatError KeyedBlob :=
  (Binary.Blob.ofTable codec kind dimensions values).map (⟨kind, id, ·⟩)

def toSet (simulation : Nat) (blobs : List KeyedBlob) : Binary.BlobSet :=
  blobs.foldl (fun set b => Catalog.insert (keyText simulation b.kind b.id) b.blob set) .empty

end KeyedBlob

end CrystalModel
