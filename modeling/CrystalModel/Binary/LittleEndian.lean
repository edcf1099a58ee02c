/-! # Little-endian words

Whole numbers as byte strings of a fixed width, least significant byte first. -/
namespace CrystalModel.Binary

abbrev Bytes := List UInt8

def value : Bytes → Nat
  | [] => 0
  | b :: bytes => b.toNat + 256 * value bytes

def word : Nat → Nat → Bytes
  | 0, _ => []
  | width + 1, n => UInt8.ofNat n :: word width (n / 256)

@[simp] theorem word_length (width n : Nat) : (word width n).length = width := by
  induction width generalizing n with
  | zero => rfl
  | succ width ih => simp [word, ih]

theorem word_value (bytes : Bytes) : word bytes.length (value bytes) = bytes := by
  induction bytes with
  | nil => rfl
  | cons b bytes ih =>
    have hb := b.toNat_lt
    have hdiv : (b.toNat + 256 * value bytes) / 256 = value bytes := by omega
    have hmod : UInt8.ofNat (b.toNat + 256 * value bytes) = b := by
      apply UInt8.toNat_inj.1
      rw [UInt8.toNat_ofNat']
      omega
    simp only [List.length_cons, value, word, hdiv, hmod, ih]

end CrystalModel.Binary
