import CrystalModel.Numeric.Rounding
import Mathlib

/-! # Doubles by sign, significand and exponent

A double is packed from a sign, a significand of at most 53 bits and an exponent, and what is
packed from a significand that uses all its bits is found again. -/
namespace CrystalModel.Double

open Float.Model Float.Model.UnpackedFloat

/-- Significands below `2 ^ 52` belong to the least exponent only. -/
structure Canonical (m : Nat) (e : Int) : Prop where
  bits : m < 2 ^ 53
  least : -1074 ≤ e
  most : e ≤ 971
  full : 2 ^ 52 ≤ m ∨ e = -1074

/-- A significand and an exponent that nothing is rounded off, however great they are. -/
structure Normal (m : Nat) (e : Int) : Prop where
  bits : m < 2 ^ 53
  least : -1074 ≤ e
  full : 2 ^ 52 ≤ m ∨ e = -1074

section Normal

variable {m : Nat} {e : Int}

theorem Canonical.normal (c : Canonical m e) : Normal m e := ⟨c.bits, c.least, c.full⟩

theorem Normal.canonical (n : Normal m e) (most : e ≤ 971) : Canonical m e :=
  ⟨n.bits, n.least, most, n.full⟩

end Normal

section Components

variable (s : Sign) (e : BitVec 11) (m : BitVec 52)

theorem exists_packComponents (b : BitVec 64) :
    ∃ (s : Sign) (e : BitVec 11) (m : BitVec 52), b = packComponents Format.binary64 s e m := by
  have parts := @packComponents_unpackSign_unpackExponent_unpackMantissa Format.binary64 b
  exact ⟨_, _, _, parts.symm⟩

theorem implicit_toNat : (1#1 ++ m).toNat = 2 ^ 52 + m.toNat := by
  rw [BitVec.toNat_append, ← Nat.shiftLeft_add_eq_or_of_lt m.isLt]
  simp [Nat.shiftLeft_eq]

theorem unpack_last : unpack Format.binary64 (packComponents Format.binary64 s (-1#11) m) =
    if m = 0#52 then .infinity s else .notANumber := by
  unfold UnpackedFloat.unpack
  simp only [unpackMantissa_packComponents, unpackExponent_packComponents,
    unpackSign_packComponents, Sign.ofBitVec_toBitVec, if_true]

theorem unpack_zero : unpack Format.binary64 (packComponents Format.binary64 s 0#11 0#52) =
    .zero s := by
  unfold UnpackedFloat.unpack
  simp only [unpackMantissa_packComponents, unpackExponent_packComponents,
    unpackSign_packComponents, Sign.ofBitVec_toBitVec]
  rfl

theorem unpack_subnormal {m : BitVec 52} (hm : 0 < m.toNat) :
    unpack Format.binary64 (packComponents Format.binary64 s 0#11 m) =
      .finite s m.toNat (-1074) hm := by
  have notZero : m ≠ 0#52 := by
    intro zero
    subst zero
    exact absurd hm (by decide)
  unfold UnpackedFloat.unpack
  simp only [unpackMantissa_packComponents, unpackExponent_packComponents,
    unpackSign_packComponents, Sign.ofBitVec_toBitVec]
  rw [if_neg (by decide), if_pos trivial, dif_neg notZero]
  rfl

theorem unpack_normal {e : BitVec 11} (low : 0 < e.toNat) (high : e.toNat < 2047) :
    unpack Format.binary64 (packComponents Format.binary64 s e m) =
      .finite s (2 ^ 52 + m.toNat) (e.toNat - 1075) (by omega) := by
  have notLast : e ≠ -1#11 := by
    intro last
    subst last
    exact absurd high (by decide)
  have notZero : e ≠ 0#11 := by
    intro zero
    subst zero
    exact absurd low (by decide)
  unfold UnpackedFloat.unpack
  simp only [unpackMantissa_packComponents, unpackExponent_packComponents,
    unpackSign_packComponents, Sign.ofBitVec_toBitVec]
  rw [if_neg notLast, if_neg notZero]
  simp only [implicit_toNat]
  rfl

theorem pack_subnormal {n : Nat} (low : 0 < n) (high : n < 2 ^ 52) :
    UnpackedFloat.pack Format.binary64 (.finite s n (-1074) low) =
      packComponents Format.binary64 s 0#11 (BitVec.ofNat 52 n) := by
  have bits : n.log2 < 52 := (Nat.log2_lt (by omega)).mpr high
  unfold UnpackedFloat.pack
  rw [if_neg (by decide), if_neg]
  change n.log2 + 1 ≠ 53
  omega

theorem pack_normal {n : Nat} (h : 0 < n) (low : 2 ^ 52 ≤ n) (high : n < 2 ^ 53) {k : Nat}
    (least : k < 2047) : UnpackedFloat.pack Format.binary64 (.finite s n (k - 1075) h) =
      packComponents Format.binary64 s (BitVec.ofNat 11 k) (BitVec.ofNat 52 n) := by
  have bits : n.log2 = 52 := (Nat.log2_eq_iff (by omega)).mpr ⟨low, high⟩
  have biased : ((k : Int) - 1075 + Format.binary64.exponentBias +
      Format.binary64.mantissaBitsWithoutImplicit).toNat = k := by
    change ((k : Int) - 1075 + 1023 + 52).toNat = k
    omega
  unfold UnpackedFloat.pack
  simp only [biased, bits]
  rw [if_neg (by change ¬2048 ≤ k + 1; omega), if_pos (by decide)]

theorem components_cases : e = -1#11 ∨ (e = 0#11 ∧ m = 0#52) ∨ (e = 0#11 ∧ 0 < m.toNat) ∨
    (0 < e.toNat ∧ e.toNat < 2047) := by
  have range := e.isLt
  by_cases last : e = -1#11
  · exact Or.inl last
  by_cases first : e = 0#11
  · by_cases none : m = 0#52
    · exact Or.inr (Or.inl ⟨first, none⟩)
    · refine Or.inr (Or.inr (Or.inl ⟨first, ?_⟩))
      exact Nat.pos_of_ne_zero fun zero => none (BitVec.eq_of_toNat_eq zero)
  · refine Or.inr (Or.inr (Or.inr ⟨?_, ?_⟩))
    · exact Nat.pos_of_ne_zero fun zero => first (BitVec.eq_of_toNat_eq zero)
    · refine Nat.lt_of_not_le fun above => last (BitVec.eq_of_toNat_eq ?_)
      change e.toNat = 2047
      omega

end Components

theorem unpack_cases (x : Float.Model) : (∃ s, x.unpack = .infinity s) ∨ x.unpack = .notANumber ∨
    (∃ s, x.unpack = .zero s) ∨ ∃ s m e h, x.unpack = .finite s m e h ∧ Canonical m e := by
  obtain ⟨s, e, m, same⟩ := exists_packComponents x.toBits.toBitVec
  have small := m.isLt
  unfold Float.Model.unpack
  rw [same]
  rcases components_cases e m with rfl | ⟨rfl, rfl⟩ | ⟨rfl, hm⟩ | ⟨low, high⟩
  · rw [unpack_last]
    by_cases none : m = 0#52
    · exact Or.inl ⟨s, if_pos none⟩
    · exact Or.inr (Or.inl (if_neg none))
  · exact Or.inr (Or.inr (Or.inl ⟨s, unpack_zero s⟩))
  · exact Or.inr (Or.inr (Or.inr ⟨s, _, _, hm, unpack_subnormal s hm,
      ⟨by omega, by decide, by decide, Or.inr rfl⟩⟩))
  · exact Or.inr (Or.inr (Or.inr ⟨s, _, _, _, unpack_normal s m low high,
      ⟨by omega, by omega, by omega, Or.inl (by omega)⟩⟩))

@[simp] theorem pack_unpack (x : Float.Model) : Float.Model.pack x.unpack = x := by
  obtain ⟨⟨bits⟩, valid⟩ := x
  have same : UnpackedFloat.pack Format.binary64
      (UnpackedFloat.unpack Format.binary64 bits) = bits :=
    pack_unpack_of_valid valid
  simp only [Float.Model.pack, Float.Model.mk.injEq]
  exact congrArg UInt64.ofBitVec same

/-- A significand that uses all its bits is found again. -/
theorem unpack_pack {s : Sign} {m : Nat} {e : Int} {h : 0 < m} (c : Canonical m e) :
    (Float.Model.pack (.finite s m e h)).unpack = .finite s m e h := by
  obtain ⟨bits, least, most, full⟩ := c
  change UnpackedFloat.unpack Format.binary64 (UnpackedFloat.pack Format.binary64 _) = _
  by_cases normal : 2 ^ 52 ≤ m
  · obtain ⟨k, hk⟩ := Int.eq_ofNat_of_zero_le (show 0 ≤ e + 1075 by omega)
    have exponent : e = k - 1075 := by omega
    subst exponent
    have kept : (BitVec.ofNat 11 k).toNat = k := by
      rw [BitVec.toNat_ofNat]
      omega
    rw [pack_normal s h normal bits (by omega), unpack_normal s _ (by omega) (by omega)]
    have whole : 2 ^ 52 + (BitVec.ofNat 52 m).toNat = m := by
      rw [BitVec.toNat_ofNat]
      omega
    congr 1
    omega
  · have exponent : e = -1074 := full.resolve_left normal
    subst exponent
    have kept : (BitVec.ofNat 52 m).toNat = m := by
      rw [BitVec.toNat_ofNat]
      omega
    rw [pack_subnormal s h (by omega), unpack_subnormal s (by omega)]
    congr 1

@[simp] theorem unpack_pack_zero (s : Sign) : (Float.Model.pack (.zero s)).unpack = .zero s :=
  unpack_packedZero

@[simp] theorem unpack_pack_infinity (s : Sign) :
    (Float.Model.pack (.infinity s)).unpack = .infinity s :=
  (unpack_last s 0#52).trans (if_pos rfl)

theorem unpack_pack_overflow {s : Sign} {m : Nat} {e : Int} {h : 0 < m} (beyond : 971 < e) :
    (Float.Model.pack (.finite s m e h)).unpack = .infinity s := by
  have great : 2 ^ Format.binary64.exponentBits ≤ (e + Format.binary64.exponentBias +
      Format.binary64.mantissaBitsWithoutImplicit).toNat + 1 := by
    change 2048 ≤ (e + 1023 + 52).toNat + 1
    omega
  have packed : Float.Model.pack (.finite s m e h) = Float.Model.pack (.infinity s) := by
    have same : UnpackedFloat.pack Format.binary64 (.finite s m e h) =
        UnpackedFloat.pack Format.binary64 (.infinity s) := if_pos great
    simp only [Float.Model.pack, Float.Model.mk.injEq]
    exact congrArg UInt64.ofBitVec same
  rw [packed, unpack_pack_infinity]

@[simp] theorem unpack_pack_nan : (Float.Model.pack .notANumber).unpack = .notANumber :=
  unpack_packedNaN

end CrystalModel.Double
