import CrystalModel.Binary.BlobSet
import CrystalModel.Proofs.Binary.Table

/-! # Rereading blobs

The check of a blob passes exactly for well-formed blobs whose elements have the size that the
records of its kind have. Rows of records and tables are such blobs, as long as a header can count
their elements. -/
namespace CrystalModel.Binary

def BlobType.recordSize? : BlobType → Option Nat
  | latticeInfo => some (Record.size LatticeInfo)
  | pairDefinitions => some (Record.size PairDefinition)
  | clusterDefinitions => some (Record.size ClusterDefinition)
  | particleTableBuffer => some (Record.size ParticleBuffer)
  | jumpDirections => some (Record.size JumpDirection)
  | jumpLinks => some (Record.size JumpLink)
  | moveVectors => some (Record.size MoveVector)
  | globalMoves => some (Record.size MoveVector)
  | jumpRules => some (Record.size JumpRule)
  | pairTable => none
  | clusterTable => none
  | occupationCodes => none
  | jumpCounts => none
  | jumpAssign => none

theorem BlobType.recordSize?_bounds {kind : BlobType} {size : Nat}
    (h : kind.recordSize? = some size) : 0 < size ∧ size < 2 ^ 31 := by
  cases kind <;> cases h <;> decide

def Blob.Countable (b : Blob) : Prop :=
  (b.payload.length : Int) < 2 ^ 31 * b.header.elementSize.toInt

instance (b : Blob) : Decidable b.Countable := inferInstanceAs (Decidable (_ < _))

theorem Blob.Countable.length_lt {α : Type} {c : Codec α} {row : List α} {b : Blob}
    (countable : b.Countable) (lawful : c.Lawful) (sized : b.header.elementSize.toInt = c.width)
    (filled : row.flatMap c.write = b.payload) : row.length < 2 ^ 31 := by
  rw [Countable, ← filled, lawful.row_length, sized, Int.natCast_mul] at countable
  have := Int.lt_of_mul_lt_mul_right countable (Int.natCast_nonneg _)
  omega

namespace BlobSet

variable {b : Blob}

theorem checkRecords_ok_iff {α : Type} [Record α] (wellFormed : b.WellFormed)
    (lawful : (Record.codec (α := α)).Lawful) :
    checkRecords α b = .ok () ↔ b.header.elementSize.toInt = Record.size α := by
  constructor
  · intro passed
    obtain ⟨_, read, _⟩ := bind_ok_iff.mp passed
    obtain ⟨_, sized, _⟩ := bind_ok_iff.mp read
    exact Blob.holds_ok_iff.mp sized
  · intro sized
    obtain ⟨row, read, _, filled⟩ := wellFormed.elements.records α lawful sized
    exact bind_ok_iff.mpr ⟨row, read, by rw [if_pos filled]; rfl⟩

/-- The check of a blob is neither too strict nor too lenient. -/
theorem checkBlob_ok_iff : checkBlob b = .ok () ↔
    b.WellFormed ∧ ∀ size ∈ b.kind.recordSize?, b.header.elementSize.toInt = size := by
  have content (wellFormed : b.WellFormed) : checkBlob b = .ok () ↔
      ∀ size ∈ b.kind.recordSize?, b.header.elementSize.toInt = size := by
    have reread := Blob.ofBytes_ok_iff.mpr ⟨wellFormed, rfl⟩
    rw [checkBlob, reread]
    simp only [bind, Except.bind, ne_eq, not_true_eq_false, if_false]
    cases b.kind <;> simp [BlobType.recordSize?, checkRecords_ok_iff wellFormed,
      Record.lawful_latticeInfo, Record.lawful_pairDefinition, Record.lawful_clusterDefinition,
      Record.lawful_particleBuffer, Record.lawful_jumpDirection, Record.lawful_jumpLink,
      Record.lawful_moveVector, Record.lawful_jumpRule]
  constructor
  · intro passed
    obtain ⟨reread, read, compared⟩ := bind_ok_iff.mp passed
    have wellFormed : b.WellFormed := by
      by_cases differ : reread = b
      · exact differ ▸ (Blob.ofBytes_ok_iff.mp read).1
      · rw [if_pos differ] at compared
        cases compared
    exact ⟨wellFormed, (content wellFormed).mp passed⟩
  · rintro ⟨wellFormed, sized⟩
    exact (content wellFormed).mpr sized

theorem checkBlob_ofRecords {α : Type} [Record α] {kind : BlobType} {records : List α}
    (lawful : (Record.codec (α := α)).Lawful) (sized : kind.recordSize? = some (Record.size α))
    (countable : (Blob.ofRecords kind records).Countable) :
    checkBlob (Blob.ofRecords kind records) = .ok () := by
  obtain ⟨pos, narrow⟩ := BlobType.recordSize?_bounds sized
  have elementSize : (Blob.ofRecords kind records).header.elementSize.toInt = Record.size α :=
    Int32.toInt_ofNat_of_lt narrow
  have few : records.length < 2 ^ 31 := countable.length_lt lawful elementSize rfl
  have wellFormed := Blob.wellFormed_of_row lawful pos narrow few kind [] (by decide)
  refine checkBlob_ok_iff.mpr ⟨wellFormed, fun size h => ?_⟩
  obtain rfl : Record.size α = size := Option.some.inj (sized.symm.trans h)
  exact elementSize

theorem checkBlob_ofTable {α : Type} {c : Codec α} {kind : BlobType} {dimensions : List Nat}
    {values : List α} (made : Blob.ofTable c kind dimensions values = .ok b) (lawful : c.Lawful)
    (pos : 0 < c.width) (narrow : c.width < 2 ^ 31) (rank : dimensions.length < 2 ^ 31)
    (plain : kind.recordSize? = none) (countable : b.Countable) : checkBlob b = .ok () := by
  obtain ⟨_, _, rfl⟩ := Blob.ofTable_ok_iff.mp made
  have few : values.length < 2 ^ 31 :=
    countable.length_lt lawful (Int32.toInt_ofNat_of_lt narrow) rfl
  refine checkBlob_ok_iff.mpr ⟨Blob.wellFormed_of_ofTable made lawful pos narrow rank few, ?_⟩
  intro size h
  cases plain.symm.trans h

end BlobSet

end CrystalModel.Binary
