import CrystalModel.Binary.Codec
import Mathlib.Algebra.Group.Nat.Defs

/-! # Laws of fixed-width forms

A byte string stands for a number below the power of 256 that its length gives, and a word keeps a
number up to that power. So the forms of single values are lawful, and so is everything that is put
together from lawful forms: fields behind each other, rows of equal values, and the same bytes for
another type. -/
namespace CrystalModel.Binary

theorem value_lt (bytes : Bytes) : value bytes < 256 ^ bytes.length := by
  induction bytes with
  | nil => simp [value]
  | cons b bytes ih =>
    have := b.toNat_lt
    simp only [value, List.length_cons, Nat.pow_succ]
    omega

theorem value_word (width n : Nat) : value (word width n) = n % 256 ^ width := by
  induction width generalizing n with
  | zero => simp [word, value, Nat.mod_one]
  | succ width ih =>
    have hb : (UInt8.ofNat n).toNat = n % 256 := UInt8.toNat_ofNat'
    rw [word, value, ih, hb, Nat.pow_succ', Nat.mod_mul]

namespace Codec

theorem lawful_of_word {α : Type} {width : Nat} {c : Codec α} (number : α → Nat) (make : Nat → α)
    (form : c = ⟨width, fun a => word width (number a), fun bytes => make (value bytes)⟩)
    (make_number : ∀ a, make (number a) = a) (number_lt : ∀ a, number a < 256 ^ width)
    (number_make : ∀ n < 256 ^ width, number (make n) = n) : c.Lawful := by
  subst form
  refine ⟨fun a => word_length _ _, fun a => ?_, fun bytes full => ?_⟩
  · change make (value (word width (number a))) = a
    rw [value_word, Nat.mod_eq_of_lt (number_lt a), make_number]
  · obtain rfl : bytes.length = width := full
    change word bytes.length (number (make (value bytes))) = bytes
    rw [number_make _ (value_lt bytes), word_value]

theorem lawful_byte : byte.Lawful := by
  refine ⟨fun _ => rfl, fun _ => rfl, fun bytes full => ?_⟩
  obtain ⟨b, rfl⟩ := List.length_eq_one_iff.mp full
  rfl

theorem lawful_uint32 : uint32.Lawful := by
  refine lawful_of_word UInt32.toNat UInt32.ofNat rfl (fun n => UInt32.ofNat_toNat)
    (fun n => n.toNat_lt) fun n below => ?_
  exact UInt32.toNat_ofNat_of_lt' below

theorem lawful_int32 : int32.Lawful := by
  refine lawful_of_word (fun n : Int32 => n.toUInt32.toNat) (fun n => (UInt32.ofNat n).toInt32) rfl
    (fun n => ?_) (fun n => n.toUInt32.toNat_lt) fun n below => ?_
  · rw [UInt32.ofNat_toNat]
    rfl
  · exact UInt32.toNat_ofNat_of_lt' below

theorem lawful_int64 : int64.Lawful := by
  refine lawful_of_word (fun n : Int64 => n.toUInt64.toNat) (fun n => (UInt64.ofNat n).toInt64) rfl
    (fun n => ?_) (fun n => n.toUInt64.toNat_lt) fun n below => ?_
  · rw [UInt64.ofNat_toNat]
    rfl
  · exact UInt64.toNat_ofNat_of_lt' below

theorem lawful_binary64 : binary64.Lawful := by
  refine lawful_of_word (fun x : Binary64 => x.bits.toNat) (fun n => ⟨UInt64.ofNat n⟩) rfl
    (fun x => ?_) (fun x => x.bits.toNat_lt) fun n below => ?_
  · rw [UInt64.ofNat_toNat]
  · exact UInt64.toNat_ofNat_of_lt' below

variable {α β : Type} {c : Codec α} {d : Codec β}

namespace Lawful

theorem pair (hc : c.Lawful) (hd : d.Lawful) : (c.pair d).Lawful := by
  refine ⟨?_, ?_, ?_⟩
  · rintro ⟨a, b⟩
    change (c.write a ++ d.write b).length = c.width + d.width
    rw [List.length_append, hc.write_length, hd.write_length]
  · rintro ⟨a, b⟩
    change (c.read ((c.write a ++ d.write b).take c.width),
      d.read ((c.write a ++ d.write b).drop c.width)) = (a, b)
    rw [List.take_left' (hc.write_length a), List.drop_left' (hc.write_length a), hc.read_write,
      hd.read_write]
  · intro bytes full
    have full : bytes.length = c.width + d.width := full
    change c.write (c.read (bytes.take c.width)) ++ d.write (d.read (bytes.drop c.width)) = bytes
    rw [hc.write_read _ (by rw [List.length_take]; omega),
      hd.write_read _ (by rw [List.length_drop]; omega), List.take_append_drop]

theorem map (hc : c.Lawful) {make : α → β} {back : β → α} (make_back : ∀ b, make (back b) = b)
    (back_make : ∀ a, back (make a) = a) : (c.map make back).Lawful := by
  refine ⟨fun b => hc.write_length (back b), fun b => ?_, fun bytes full => ?_⟩
  · change make (c.read (c.write (back b))) = b
    rw [hc.read_write, make_back]
  · change c.write (back (make (c.read bytes))) = bytes
    rw [back_make, hc.write_read bytes full]

@[simp] theorem row_length (hc : c.Lawful) (row : List α) :
    (row.flatMap c.write).length = row.length * c.width := by
  induction row with
  | nil => simp
  | cons a row ih =>
    rw [List.flatMap_cons, List.length_append, hc.write_length, ih, List.length_cons, Nat.succ_mul,
      Nat.add_comm]

theorem row_piece (hc : c.Lawful) {row : List α} {i : Nat} (inside : i < row.length) :
    ((row.flatMap c.write).drop (i * c.width)).take c.width = c.write row[i] := by
  induction row generalizing i with
  | nil => cases inside
  | cons a row ih =>
    rw [List.flatMap_cons]
    cases i with
    | zero =>
      rw [Nat.zero_mul, List.drop_zero]
      exact List.take_left' (hc.write_length a)
    | succ i =>
      have front : (i + 1) * c.width = (c.write a).length + i * c.width := by
        rw [hc.write_length, Nat.succ_mul, Nat.add_comm]
      rw [front, List.drop_length_add_append]
      exact ih (Nat.lt_of_succ_lt_succ inside)

theorem pieces_flatten {n width : Nat} {bytes : Bytes} (full : bytes.length = n * width) :
    (List.ofFn fun i : Fin n => (bytes.drop (i * width)).take width).flatten = bytes := by
  induction n generalizing bytes with
  | zero =>
    rw [Nat.zero_mul, List.length_eq_zero_iff] at full
    rw [full]
    rfl
  | succ n ih =>
    have rest : (bytes.drop width).length = n * width := by
      rw [List.length_drop, full, Nat.succ_mul]
      omega
    have later : (fun i : Fin n => (bytes.drop (i.succ * width)).take width) =
        fun i : Fin n => ((bytes.drop width).drop (i * width)).take width := by
      funext i
      rw [List.drop_drop, Fin.val_succ, Nat.succ_mul, Nat.add_comm]
    rw [List.ofFn_succ, List.flatten_cons, later, ih rest, Fin.val_zero, Nat.zero_mul,
      List.drop_zero, List.take_append_drop]

theorem vector (hc : c.Lawful) (n : Nat) : (Codec.vector n c).Lawful := by
  refine ⟨fun v => ?_, fun v => ?_, fun bytes full => ?_⟩
  · change (v.toList.flatMap c.write).length = n * c.width
    rw [hc.row_length, Vector.length_toList]
  · change (Vector.ofFn fun i : Fin n =>
      c.read (((v.toList.flatMap c.write).drop (i * c.width)).take c.width)) = v
    refine Vector.ext fun i inside => ?_
    have listed : i < v.toList.length := by rwa [Vector.length_toList]
    rw [Vector.getElem_ofFn, hc.row_piece listed, hc.read_write, Vector.getElem_toList]
  · have full : bytes.length = n * c.width := full
    change (Vector.ofFn fun i : Fin n =>
      c.read ((bytes.drop (i * c.width)).take c.width)).toList.flatMap c.write = bytes
    have whole : ∀ i : Fin n, ((bytes.drop (i * c.width)).take c.width).length = c.width := by
      intro i
      have behind : (i.val + 1) * c.width ≤ n * c.width := Nat.mul_le_mul_right _ i.isLt
      rw [Nat.succ_mul] at behind
      rw [List.length_take, List.length_drop]
      omega
    have same : (c.write ∘ fun i : Fin n => c.read ((bytes.drop (i * c.width)).take c.width)) =
        fun i : Fin n => (bytes.drop (i * c.width)).take c.width := by
      funext i
      exact hc.write_read _ (whole i)
    rw [Vector.toList_ofFn, List.flatMap_def, List.map_ofFn, same, pieces_flatten full]

theorem chunks_row (hc : c.Lawful) (pos : 0 < c.width) (row : List α) :
    chunks c.width (row.flatMap c.write) = row.map c.write := by
  induction row with
  | nil =>
    rw [List.flatMap_nil, List.map_nil, chunks]
    exact if_pos (Or.inr pos)
  | cons a row ih =>
    have whole : ¬(c.width = 0 ∨ ((a :: row).flatMap c.write).length < c.width) := by
      rw [hc.row_length, List.length_cons, Nat.succ_mul]
      omega
    rw [chunks, if_neg whole, List.flatMap_cons, List.take_left' (hc.write_length a),
      List.drop_left' (hc.write_length a), ih, List.map_cons]

theorem read_row (hc : c.Lawful) (pos : 0 < c.width) (row : List α) :
    (chunks c.width (row.flatMap c.write)).map c.read = row := by
  have back : c.read ∘ c.write = id := funext hc.read_write
  rw [hc.chunks_row pos, List.map_map, back, List.map_id]

theorem exists_row (hc : c.Lawful) {n : Nat} {bytes : Bytes} (full : bytes.length = n * c.width) :
    ∃ row : List α, row.length = n ∧ row.flatMap c.write = bytes := by
  induction n generalizing bytes with
  | zero =>
    rw [Nat.zero_mul, List.length_eq_zero_iff] at full
    exact ⟨[], rfl, full.symm⟩
  | succ n ih =>
    rw [Nat.succ_mul] at full
    have rest : (bytes.drop c.width).length = n * c.width := by
      rw [List.length_drop]
      omega
    have first : (bytes.take c.width).length = c.width := by
      rw [List.length_take]
      omega
    obtain ⟨row, length, later⟩ := ih rest
    refine ⟨c.read (bytes.take c.width) :: row, by rw [List.length_cons, length], ?_⟩
    rw [List.flatMap_cons, hc.write_read _ first, later, List.take_append_drop]

end Lawful

end Codec

end CrystalModel.Binary
