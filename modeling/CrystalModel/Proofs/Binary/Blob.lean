import CrystalModel.Binary.Blob
import CrystalModel.Proofs.Binary.Record
import CrystalModel.Proofs.Fallible

/-! # Blobs and their bytes

Reading accepts exactly the byte strings that writing makes of well-formed blobs, and the elements
of a well-formed blob are read back without a rest. -/
namespace CrystalModel.Binary

theorem BlobType.ofTag_ok_iff {tag : UInt32} {kind : BlobType} :
    ofTag tag = .ok kind ↔ tag = kind.tag := by
  constructor
  · intro h
    unfold ofTag at h
    split at h
    · next found =>
      cases h
      have same := List.find?_some (p := fun kind : BlobType => kind.tag == tag) found
      exact (beq_iff_eq.mp same).symm
    · cases h
  · rintro rfl
    cases kind <;> rfl

theorem append_prefix_iff {front rest bytes : Bytes} :
    front ++ rest <+: bytes ↔ front <+: bytes ∧ rest <+: bytes.drop front.length := by
  constructor
  · rintro ⟨tail, rfl⟩
    refine ⟨⟨rest ++ tail, by rw [List.append_assoc]⟩, ⟨tail, ?_⟩⟩
    rw [List.append_assoc, List.drop_left]
  · rintro ⟨⟨tail, rfl⟩, behind⟩
    rw [List.drop_left] at behind
    exact (List.prefix_append_right_inj front).mpr behind

namespace Header

variable {bytes : Bytes} {offset : Nat} {h : Header}

/-- Element size and rank are positive, the count is not negative, and there is one index skip less
than the rank says. -/
structure Valid (h : Header) : Prop where
  elementSize : 1 ≤ h.elementSize.toInt
  rank : 1 ≤ h.rank.toInt
  count : 0 ≤ h.count.toInt
  indexSkips : (h.indexSkips.length : Int) = h.rank.toInt - 1

theorem fieldAt_ok_iff {field : Bytes} : fieldAt bytes offset = .ok field ↔
    field.length = 4 ∧ field <+: bytes.drop offset := by
  unfold fieldAt
  rw [List.prefix_iff_eq_take]
  constructor
  · intro read
    simp only at read
    split at read
    · next full =>
      cases read
      exact ⟨full, by rw [full]⟩
    · cases read
  · rintro ⟨full, inside⟩
    rw [full] at inside
    simp only [← inside, if_pos full]

theorem int32At_ok_iff {n : Int32} :
    int32At bytes offset = .ok n ↔ Codec.int32.write n <+: bytes.drop offset := by
  rw [int32At, map_ok_iff]
  constructor
  · rintro ⟨field, found, rfl⟩
    obtain ⟨full, inside⟩ := fieldAt_ok_iff.mp found
    rwa [Codec.lawful_int32.write_read field full]
  · intro inside
    exact ⟨_, fieldAt_ok_iff.mpr ⟨Codec.lawful_int32.write_length n, inside⟩,
      Codec.lawful_int32.read_write n⟩

theorem skipsAt_ok_iff {n : Nat} {skips : List Int32} : skipsAt bytes n offset = .ok skips ↔
    skips.length = n ∧ skips.flatMap Codec.int32.write <+: bytes.drop offset := by
  induction n generalizing offset skips with
  | zero =>
    rw [skipsAt, Except.ok.injEq]
    constructor
    · rintro rfl
      exact ⟨rfl, List.nil_prefix⟩
    · rintro ⟨empty, _⟩
      exact (List.length_eq_zero_iff.mp empty).symm
  | succ n ih =>
    simp only [skipsAt, bind_ok_iff, pure_ok_iff, int32At_ok_iff, ih]
    have behind : ∀ skip : Int32,
        (bytes.drop offset).drop (Codec.int32.write skip).length = bytes.drop (offset + 4) := by
      intro skip
      rw [List.drop_drop, Codec.lawful_int32.write_length]
      rfl
    constructor
    · rintro ⟨skip, first, rest, ⟨length, later⟩, rfl⟩
      rw [List.flatMap_cons, append_prefix_iff, behind]
      exact ⟨congrArg Nat.succ length, first, later⟩
    · rintro ⟨length, inside⟩
      cases skips with
      | nil => cases length
      | cons skip rest =>
        rw [List.flatMap_cons, append_prefix_iff, behind] at inside
        exact ⟨skip, inside.1, rest, ⟨Nat.succ.inj length, inside.2⟩, rfl⟩

theorem toBytes_length (h : Header) : h.toBytes.length = h.size := by
  simp only [toBytes, List.length_append, Codec.lawful_uint32.write_length,
    Codec.lawful_int32.write_length, Codec.lawful_int32.row_length, size, leadSize]
  rw [Nat.mul_comm]
  rfl

theorem toBytes_prefix_iff : h.toBytes <+: bytes ↔
    Codec.uint32.write h.kind.tag <+: bytes.drop 0 ∧
    Codec.int32.write h.elementSize <+: bytes.drop 4 ∧
    Codec.int32.write h.rank <+: bytes.drop 8 ∧
    Codec.int32.write h.count <+: bytes.drop 12 ∧
    h.indexSkips.flatMap Codec.int32.write <+: bytes.drop leadSize := by
  simp only [toBytes, append_prefix_iff, List.length_append, Codec.lawful_uint32.write_length,
    Codec.lawful_int32.write_length, List.drop_zero, and_assoc]
  rfl

theorem allowed_iff {elementSize rank count : Int32} :
    ¬(rank < 1 ∨ elementSize < 1 ∨ count < 0) ↔
      1 ≤ rank.toInt ∧ 1 ≤ elementSize.toInt ∧ 0 ≤ count.toInt := by
  have one : (1 : Int32).toInt = 1 := rfl
  have zero : (0 : Int32).toInt = 0 := rfl
  simp only [Int32.lt_iff_toInt_lt, one, zero, not_or, Int.not_lt]

theorem ofBytes_ok_iff : ofBytes bytes = .ok h ↔ h.Valid ∧ h.toBytes <+: bytes := by
  rw [toBytes_prefix_iff]
  constructor
  · intro read
    obtain ⟨field, found, read⟩ := bind_ok_iff.mp read
    obtain ⟨kind, known, read⟩ := bind_ok_iff.mp read
    obtain ⟨elementSize, first, read⟩ := bind_ok_iff.mp read
    obtain ⟨rank, second, read⟩ := bind_ok_iff.mp read
    obtain ⟨count, third, read⟩ := bind_ok_iff.mp read
    split at read
    · cases read
    · next allowed =>
      obtain ⟨skips, others, read⟩ := bind_ok_iff.mp read
      obtain rfl := pure_ok_iff.mp read
      obtain ⟨positive, sized, counted⟩ := allowed_iff.mp allowed
      obtain ⟨full, tagged⟩ := fieldAt_ok_iff.mp found
      obtain ⟨length, inside⟩ := skipsAt_ok_iff.mp others
      rw [← BlobType.ofTag_ok_iff.mp known, Codec.lawful_uint32.write_read field full]
      refine ⟨⟨sized, positive, counted, ?_⟩, tagged, int32At_ok_iff.mp first,
        int32At_ok_iff.mp second, int32At_ok_iff.mp third, inside⟩
      simp only [length]
      omega
  · rintro ⟨valid, tagged, first, second, third, inside⟩
    have length : h.indexSkips.length = h.rank.toInt.toNat - 1 := by
      have := valid.indexSkips
      omega
    have field := fieldAt_ok_iff.mpr ⟨Codec.lawful_uint32.write_length h.kind.tag, tagged⟩
    refine bind_ok_iff.mpr ⟨_, field, ?_⟩
    refine bind_ok_iff.mpr ⟨h.kind, BlobType.ofTag_ok_iff.mpr ?_, ?_⟩
    · exact Codec.lawful_uint32.read_write _
    refine bind_ok_iff.mpr ⟨_, int32At_ok_iff.mpr first, ?_⟩
    refine bind_ok_iff.mpr ⟨_, int32At_ok_iff.mpr second, ?_⟩
    refine bind_ok_iff.mpr ⟨_, int32At_ok_iff.mpr third, ?_⟩
    rw [if_neg (allowed_iff.mpr ⟨valid.rank, valid.elementSize, valid.count⟩)]
    exact bind_ok_iff.mpr ⟨_, skipsAt_ok_iff.mpr ⟨length, inside⟩, rfl⟩

theorem Valid.payloadLength (valid : h.Valid) :
    (h.payloadLength : Int) = h.elementSize.toInt * h.count.toInt := by
  have size := Int.toNat_of_nonneg (Int.le_trans Int.one_nonneg valid.elementSize)
  have count := Int.toNat_of_nonneg valid.count
  rw [Header.payloadLength, Int.natCast_mul, size, count]

end Header

namespace Blob

variable {bytes : Bytes} {b : Blob}

/-- A valid header, and exactly the payload that it announces. -/
structure WellFormed (b : Blob) : Prop where
  header : b.header.Valid
  payload : (b.payload.length : Int) = b.header.elementSize.toInt * b.header.count.toInt

theorem ofBytes_ok_iff : ofBytes bytes = .ok b ↔ b.WellFormed ∧ b.toBytes = bytes := by
  constructor
  · intro read
    obtain ⟨h, header, read⟩ := bind_ok_iff.mp read
    obtain ⟨valid, inFront⟩ := Header.ofBytes_ok_iff.mp header
    simp only at read
    split at read
    · next full =>
      obtain rfl := pure_ok_iff.mp read
      have whole := List.prefix_iff_eq_append.mp inFront
      rw [Header.toBytes_length] at whole
      refine ⟨⟨valid, ?_⟩, whole⟩
      rw [List.length_drop, full, Nat.add_sub_cancel_left, valid.payloadLength]
    · cases read
  · rintro ⟨wellFormed, rfl⟩
    have announced : b.payload.length = b.header.payloadLength := by
      rw [← Int.natCast_inj, wellFormed.payload, wellFormed.header.payloadLength]
    have full : b.toBytes.length = b.header.size + b.header.payloadLength := by
      rw [toBytes, List.length_append, Header.toBytes_length, announced]
    have header : Header.ofBytes b.toBytes = .ok b.header :=
      Header.ofBytes_ok_iff.mpr ⟨wellFormed.header, List.prefix_append _ _⟩
    refine bind_ok_iff.mpr ⟨_, header, ?_⟩
    simp only [if_pos full]
    rw [toBytes, List.drop_left' (Header.toBytes_length _)]
    rfl

theorem holds_ok_iff {width : Nat} :
    b.holds width = .ok () ↔ b.header.elementSize.toInt = width := by
  unfold holds
  split <;> simp [*]

section Elements

variable {α : Type}

theorem WellFormed.exists_row (wellFormed : b.WellFormed) {c : Codec α} (lawful : c.Lawful)
    (sized : b.header.elementSize.toInt = c.width) :
    ∃ row : List α, (row.length : Int) = b.header.count.toInt ∧
      row.flatMap c.write = b.payload := by
  have count := Int.toNat_of_nonneg wellFormed.header.count
  have full : b.payload.length = b.header.count.toInt.toNat * c.width := by
    rw [← Int.natCast_inj, wellFormed.payload, sized, Int.natCast_mul, count, Int.mul_comm]
  obtain ⟨row, length, filled⟩ := lawful.exists_row full
  exact ⟨row, by rw [length, count], filled⟩

theorem values_of_row {c : Codec α} (lawful : c.Lawful) (pos : 0 < c.width) {row : List α}
    (sized : b.header.elementSize.toInt = c.width) (filled : row.flatMap c.write = b.payload) :
    b.values c = .ok row := by
  refine bind_ok_iff.mpr ⟨(), holds_ok_iff.mpr sized, ?_⟩
  rw [← filled, lawful.read_row pos]
  rfl

theorem records_of_row [Record α] (lawful : (Record.codec (α := α)).Lawful)
    (pos : 0 < Record.size α) {row : List α} (sized : b.header.elementSize.toInt = Record.size α)
    (filled : row.flatMap Record.encode = b.payload) : b.records α = .ok row := by
  refine bind_ok_iff.mpr ⟨(), holds_ok_iff.mpr sized, ?_⟩
  have pieces : chunks (Record.size α) b.payload = row.map Record.encode :=
    filled ▸ lawful.chunks_row pos row
  rw [pieces, mapM_ok_iff, List.forall₂_map_left_iff, List.forall₂_same]
  intro r _
  exact (Record.RoundTrips.of_lawful lawful rfl).decode_encode r

theorem wellFormed_of_row {c : Codec α} (lawful : c.Lawful) (pos : 0 < c.width)
    (narrow : c.width < 2 ^ 31) {row : List α} (few : row.length < 2 ^ 31) (kind : BlobType)
    (skips : List Int32) (rank : skips.length + 1 < 2 ^ 31) :
    WellFormed ⟨⟨kind, Int32.ofNat c.width, Int32.ofNat (skips.length + 1), Int32.ofNat row.length,
      skips⟩, row.flatMap c.write⟩ := by
  refine ⟨⟨?_, ?_, ?_, ?_⟩, ?_⟩
  · simp only [Int32.toInt_ofNat_of_lt narrow]
    omega
  · simp only [Int32.toInt_ofNat_of_lt rank]
    omega
  · simp only [Int32.toInt_ofNat_of_lt few]
    omega
  · simp only [Int32.toInt_ofNat_of_lt rank]
    omega
  · simp only [Int32.toInt_ofNat_of_lt narrow, Int32.toInt_ofNat_of_lt few, lawful.row_length,
      Int.natCast_mul, Int.mul_comm]

end Elements

/-- Values and records of the element size are read back: as many as the header counts, and they
fill the payload. -/
structure Elements (b : Blob) : Prop where
  values : ∀ {α : Type} (c : Codec α), c.Lawful → b.header.elementSize.toInt = c.width →
    ∃ row, b.values c = .ok row ∧ (row.length : Int) = b.header.count.toInt ∧
      row.flatMap c.write = b.payload
  records : ∀ (α : Type) [Record α], (Record.codec (α := α)).Lawful →
    b.header.elementSize.toInt = Record.size α →
    ∃ row, b.records α = .ok row ∧ (row.length : Int) = b.header.count.toInt ∧
      row.flatMap Record.encode = b.payload

theorem WellFormed.elements (wellFormed : b.WellFormed) : b.Elements := by
  have positive : ∀ {width : Nat}, b.header.elementSize.toInt = width → 0 < width := by
    intro width sized
    have := wellFormed.header.elementSize
    omega
  refine ⟨fun c lawful sized => ?_, fun α _ lawful sized => ?_⟩
  · obtain ⟨row, counted, filled⟩ := wellFormed.exists_row lawful sized
    exact ⟨row, values_of_row lawful (positive sized) sized filled, counted, filled⟩
  · obtain ⟨row, counted, filled⟩ := wellFormed.exists_row lawful sized
    exact ⟨row, records_of_row lawful (positive sized) sized filled, counted, filled⟩

/-- Byte strings that can be read and well-formed blobs stand for each other. -/
theorem reads_exactly :
    (∀ bytes b, ofBytes bytes = .ok b → b.toBytes = bytes) ∧
    (∀ bytes, (∃ b, ofBytes bytes = .ok b) ↔ ∃ b : Blob, b.WellFormed ∧ b.toBytes = bytes) ∧
    ∀ b : Blob, b.WellFormed → ofBytes b.toBytes = .ok b ∧ b.Elements := by
  refine ⟨fun bytes b read => (ofBytes_ok_iff.mp read).2, fun bytes => ?_, fun b wellFormed => ?_⟩
  · simp only [ofBytes_ok_iff]
  · exact ⟨ofBytes_ok_iff.mpr ⟨wellFormed, rfl⟩, wellFormed.elements⟩

example : ofBytes [9, 0, 0, 0, 8, 0, 0, 0, 1, 0, 0, 0, 1, 0, 0, 0, 3, 0, 0, 0, 255, 255, 255, 255] =
    .ok (ofRecords .jumpLinks [(⟨3, -1⟩ : JumpLink)]) := by decide

end Blob

end CrystalModel.Binary
