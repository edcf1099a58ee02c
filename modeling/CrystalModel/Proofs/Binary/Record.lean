import CrystalModel.Binary.Record
import CrystalModel.Proofs.Binary.Codec
import Mathlib.Tactic.ByContra

/-! # Records and their bytes

Every record type has one form of a fixed size: writing and reading undo each other on all records
and on all byte strings of that size, and byte strings of any other size are refused. -/
namespace CrystalModel.Binary.Record

/-- Records of a type and byte strings of a size stand for each other. -/
structure RoundTrips (α : Type) [Record α] (bytes : Nat) : Prop where
  encode_length : ∀ r : α, (encode r).length = bytes
  decode_encode : ∀ r : α, decode α (encode r) = .ok r
  decode_ok_iff : ∀ b : Bytes, (∃ r, decode α b = .ok r) ↔ b.length = bytes
  encode_decode : ∀ (b : Bytes) (r : α), decode α b = .ok r → encode r = b
  refused : ∀ b : Bytes, b.length ≠ bytes →
    decode α b = .error (.sizeContract (name α) bytes b.length)

theorem RoundTrips.of_lawful {α : Type} [Record α] {bytes : Nat}
    (lawful : (codec (α := α)).Lawful) (sized : size α = bytes) : RoundTrips α bytes := by
  subst sized
  have full : ∀ r : α, (encode r).length = size α := lawful.write_length
  have accepted : ∀ b : Bytes, b.length = size α → decode α b = .ok (codec.read b) :=
    fun b fits => if_pos fits
  have refused : ∀ b : Bytes, b.length ≠ size α →
      decode α b = .error (.sizeContract (name α) (size α) b.length) := fun b other => if_neg other
  refine ⟨full, fun r => ?_, fun b => ⟨?_, fun fits => ⟨_, accepted b fits⟩⟩, ?_, refused⟩
  · rw [accepted _ (full r), encode, lawful.read_write]
  · rintro ⟨r, read⟩
    by_contra other
    rw [refused b other] at read
    cases read
  · intro b r read
    by_cases fits : b.length = size α
    · rw [accepted b fits] at read
      obtain rfl := Except.ok.inj read
      exact lawful.write_read b fits
    · rw [refused b fits] at read
      cases read

open Codec

theorem lawful_jumpRule : (codec (α := JumpRule)).Lawful :=
  (lawful_int64.pair (lawful_int64.pair (lawful_int64.pair (lawful_binary64.pair
    (lawful_binary64.pair (lawful_binary64.pair (lawful_byte.vector 8))))))).map
    (fun _ => rfl) fun _ => rfl

theorem lawful_jumpLink : (codec (α := JumpLink)).Lawful :=
  (lawful_int32.pair lawful_int32).map (fun _ => rfl) fun _ => rfl

theorem lawful_moveVector : (codec (α := MoveVector)).Lawful :=
  ((lawful_binary64.vector 3).pair (lawful_int32.pair (lawful_byte.vector 4))).map
    (fun _ => rfl) fun _ => rfl

theorem lawful_arrayShape : arrayShape.Lawful :=
  (lawful_int32.pair (lawful_int32.vector 4)).map (fun _ => rfl) fun _ => rfl

theorem lawful_latticeInfo : (codec (α := LatticeInfo)).Lawful :=
  ((lawful_int32.vector 4).pair (lawful_int32.pair (lawful_int32.pair (lawful_arrayShape.pair
    (lawful_arrayShape.pair (lawful_byte.vector 8)))))).map (fun _ => rfl) fun _ => rfl

theorem lawful_pairDefinition : (codec (α := PairDefinition)).Lawful :=
  ((lawful_int32.vector 4).pair lawful_int32).map (fun _ => rfl) fun _ => rfl

theorem lawful_clusterDefinition : (codec (α := ClusterDefinition)).Lawful :=
  ((lawful_int32.vector 8).pair lawful_int32).map (fun _ => rfl) fun _ => rfl

theorem lawful_jumpDirection : (codec (α := JumpDirection)).Lawful :=
  (lawful_int32.pair (lawful_int32.pair (lawful_int32.pair (lawful_int32.pair
    (lawful_binary64.pair ((lawful_int32.vector 4).vector 8)))))).map (fun _ => rfl) fun _ => rfl

theorem lawful_particleBuffer : (codec (α := ParticleBuffer)).Lawful :=
  (lawful_byte.vector 64).map (fun _ => rfl) fun _ => rfl

/-- The eight record types with their contracted sizes. -/
theorem records_roundTrip :
    RoundTrips JumpRule 56 ∧ RoundTrips JumpLink 8 ∧ RoundTrips MoveVector 32 ∧
      RoundTrips LatticeInfo 72 ∧ RoundTrips PairDefinition 20 ∧
      RoundTrips ClusterDefinition 36 ∧ RoundTrips JumpDirection 152 ∧
      RoundTrips ParticleBuffer 64 := by
  refine ⟨?_, ?_, ?_, ?_, ?_, ?_, ?_, ?_⟩
  · exact .of_lawful lawful_jumpRule rfl
  · exact .of_lawful lawful_jumpLink rfl
  · exact .of_lawful lawful_moveVector rfl
  · exact .of_lawful lawful_latticeInfo rfl
  · exact .of_lawful lawful_pairDefinition rfl
  · exact .of_lawful lawful_clusterDefinition rfl
  · exact .of_lawful lawful_jumpDirection rfl
  · exact .of_lawful lawful_particleBuffer rfl

example : encode (⟨1, -1⟩ : JumpLink) = [1, 0, 0, 0, 255, 255, 255, 255] := by decide

end CrystalModel.Binary.Record
