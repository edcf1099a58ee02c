import CrystalModel.Proofs.Numeric.Rounding

/-! # Arithmetic of doubles

What sums, differences and comparisons make of the numbers that doubles stand for. -/
namespace CrystalModel.Double

open Float.Model Float.Model.UnpackedFloat

def unpacked (x : Float) : UnpackedFloat := x.toModel.unpack

variable {x y : Float} {s : Sign} {m : Nat} {e : Int} {h : 0 < m}

theorem eq_of_unpacked (same : unpacked x = unpacked y) : x = y := by
  obtain ⟨x⟩ := x
  obtain ⟨y⟩ := y
  have same : x.unpack = y.unpack := same
  rw [← pack_unpack x, same, pack_unpack]

theorem canonical_of_unpacked (hx : unpacked x = .finite s m e h) : Canonical m e := by
  rcases unpack_cases x.toModel with ⟨_, other⟩ | other | ⟨_, other⟩ | ⟨_, _, _, _, same, c⟩
  · cases other.symm.trans hx
  · cases other.symm.trans hx
  · cases other.symm.trans hx
  · cases same.symm.trans hx
    exact c

theorem finite_cases (hx : x.isFinite = true) : (∃ s, unpacked x = .zero s) ∨
    ∃ s m e h, unpacked x = .finite s m e h ∧ Canonical m e := by
  have finite : (unpacked x).isFinite = true := hx
  rcases unpack_cases x.toModel with ⟨s, special⟩ | special | zero | number
  · rw [unpacked, special] at finite
    cases finite
  · rw [unpacked, special] at finite
    cases finite
  · exact Or.inl zero
  · exact Or.inr number

theorem not_finite_cases (hx : x.isFinite = false) :
    (∃ s, unpacked x = .infinity s) ∨ unpacked x = .notANumber := by
  have infinite : (unpacked x).isFinite = false := hx
  cases hu : unpacked x with
  | infinity s => exact Or.inl ⟨s, rfl⟩
  | notANumber => exact Or.inr rfl
  | zero s =>
    rw [hu] at infinite
    cases infinite
  | finite s m e h =>
    rw [hu] at infinite
    cases infinite

theorem unpacked_sub (x y : Float) : unpacked (x - y) =
    (Float.Model.pack (UnpackedFloat.sub Format.binary64 (unpacked x) (unpacked y))).unpack := rfl

theorem unpacked_neg (x : Float) :
    unpacked (-x) = (Float.Model.pack (unpacked x).neg).unpack := rfl

theorem unpacked_zero : unpacked 0.0 = .zero .positive := by
  have packed : (0.0 : Float).toModel = Float.Model.pack (.zero .positive) := rfl
  rw [unpacked, packed, unpack_pack_zero]

theorem canonical_one : Canonical (2 ^ 52) (-52) :=
  ⟨by decide, by decide, by decide, Or.inl (Nat.le_refl _)⟩

theorem unpacked_one : unpacked 1.0 = .finite .positive (2 ^ 52) (-52) (by decide) := by
  have packed : (1.0 : Float).toModel =
      Float.Model.pack (.finite .positive (2 ^ 52) (-52) (by decide)) := rfl
  rw [unpacked, packed, unpack_pack canonical_one]

theorem mul_one (hx : unpacked x = .finite .positive m e h) : x * 1.0 = x := by
  have c := canonical_of_unpacked hx
  have product := roundWithAccuracy_exact c.normal h (.positive * .positive) 52
  apply eq_of_unpacked
  change (Float.Model.pack
    (UnpackedFloat.mul Format.binary64 (unpacked x) (unpacked 1.0))).unpack = _
  rw [hx, unpacked_one]
  change (Float.Model.pack
    (roundWithAccuracy Format.binary64 _ (m * 2 ^ 52) (e + -52) .exact)).unpack = _
  rw [show e + -52 = e - (52 : Nat) by omega, product]
  exact unpack_pack c

theorem sub_zero (hx : unpacked x = .finite s m e h) : x - 0.0 = x := by
  apply eq_of_unpacked
  rw [unpacked_sub, unpacked_zero, hx]
  exact unpack_pack (canonical_of_unpacked hx)

theorem sub_self (hx : unpacked x = .finite s m e h) : x - x = 0.0 := by
  apply eq_of_unpacked
  rw [unpacked_sub, unpacked_zero, hx]
  simp only [UnpackedFloat.sub, Int.sub_self]
  exact unpack_pack_zero .positive

theorem ofNat_zero : Float.ofNat 0 = 0.0 := rfl

theorem unpacked_ofNat {n : Nat} (hn : 0 < n) (high : n < 2 ^ 53) :
    unpacked (Float.ofNat n) =
      .finite .positive (n * 2 ^ (52 - n.log2)) (-((52 - n.log2 : Nat) : Int))
        (Nat.mul_pos hn (Nat.two_pow_pos _)) := by
  have low := Nat.log2_self_le (Nat.ne_of_gt hn)
  have bits : n.log2 < 53 := (Nat.log2_lt (Nat.ne_of_gt hn)).mpr high
  have c : Canonical (n * 2 ^ (52 - n.log2)) (-((52 - n.log2 : Nat) : Int)) := by
    refine ⟨?_, by omega, by omega, Or.inl ?_⟩
    · calc n * 2 ^ (52 - n.log2) < 2 ^ (n.log2 + 1) * 2 ^ (52 - n.log2) :=
            Nat.mul_lt_mul_of_pos_right Nat.lt_log2_self (Nat.two_pow_pos _)
        _ = 2 ^ 53 := by rw [← Nat.pow_add, show n.log2 + 1 + (52 - n.log2) = 53 by omega]
    · calc 2 ^ 52 = 2 ^ n.log2 * 2 ^ (52 - n.log2) := by
            rw [← Nat.pow_add, show n.log2 + (52 - n.log2) = 52 by omega]
        _ ≤ n * 2 ^ (52 - n.log2) := Nat.mul_le_mul_right _ low
  have word : n.toUInt64.toNat = n := by
    rw [Nat.toUInt64, UInt64.toNat_ofNat']
    omega
  have converted : unpacked n.toUInt64.toFloat = .finite .positive (n * 2 ^ (52 - n.log2))
      (-((52 - n.log2 : Nat) : Int)) (Nat.mul_pos hn (Nat.two_pow_pos _)) := by
    have positive : compare (n : Int) 0 = .gt := Int.compare_eq_gt.mpr (by omega)
    change (Float.Model.pack
      (normalize Format.binary64 (n.toUInt64.toNat : Int) 0 .positive)).unpack = _
    rw [word, UnpackedFloat.normalize, positive]
    simp only [Int.toNat_natCast]
    rw [round_exact (52 - n.log2) (Nat.mul_pos hn (Nat.two_pow_pos _)) (by omega) c.normal]
    exact unpack_pack c
  have power : Float.ofNat n = n.toUInt64.toFloat * 1.0 := by
    have first : Float.ofBits 0x3FF0000000000000 = 1.0 := rfl
    rw [← first]
    exact dif_pos ⟨high, by decide⟩
  rw [power, mul_one converted, converted]

theorem unpacked_add (x y : Float) : unpacked (x + y) =
    (Float.Model.pack (UnpackedFloat.add Format.binary64 (unpacked x) (unpacked y))).unpack := rfl

theorem unpacked_abs (x : Float) : unpacked x.abs = (unpacked x).abs := by
  change (Float.Model.pack (unpacked x).abs).unpack = _
  rcases unpack_cases x.toModel with ⟨s, hx⟩ | hx | ⟨s, hx⟩ | ⟨s, m, e, h, hx, c⟩ <;>
    rw [show unpacked x = _ from hx]
  · exact unpack_pack_infinity .positive
  · exact unpack_pack_nan
  · exact unpack_pack_zero .positive
  · exact unpack_pack c

theorem add_zero (hx : unpacked x = .finite s m e h) : x + 0.0 = x := by
  apply eq_of_unpacked
  rw [unpacked_add, unpacked_zero, hx]
  exact unpack_pack (canonical_of_unpacked hx)

section Comparison

theorem le_iff : x ≤ y ↔ ((unpacked x).compare (unpacked y)).any (·.isLE) := by
  change decide (x.toModel ≤ y.toModel) = true ↔ _
  rw [decide_eq_true_iff]
  exact Iff.rfl

theorem abs_nan (hx : unpacked x = .notANumber) : unpacked x.abs = .notANumber := by
  rw [unpacked_abs, hx]
  rfl

theorem abs_positive (hx : unpacked x = .finite .positive m e h) : x.abs = x := by
  apply eq_of_unpacked
  rw [unpacked_abs, hx]
  rfl

theorem sub_nan (h : unpacked x = .notANumber ∨ unpacked y = .notANumber) :
    unpacked (x - y) = .notANumber := by
  rw [unpacked_sub]
  rcases h with h | h
  · rw [h]
    exact unpack_pack_nan
  · rw [h]
    cases unpacked x <;> exact unpack_pack_nan

theorem not_nan_le (hx : unpacked x = .notANumber) : ¬x ≤ y := by
  intro le
  rw [le_iff, hx] at le
  cases le

theorem zero_le_of_abs_le (h : x.abs ≤ y) : 0.0 ≤ y := by
  have above : ∀ u v : UnpackedFloat, (u.abs.compare v).any (·.isLE) →
      ((UnpackedFloat.zero .positive).compare v).any (·.isLE) := by
    rintro (s | _ | s | ⟨s, m, e, hm⟩) ((_ | _) | _ | _ | ⟨(_ | _), m', e', hm'⟩) le <;>
      first | rfl | cases le
  rw [le_iff, unpacked_abs] at h
  rw [le_iff, unpacked_zero]
  exact above _ _ h

theorem below_one_le {m k : Nat} {h : 0 < m} (hx : unpacked x = .finite .positive m (-(k : Int)) h)
    (below : m < 2 ^ k) (hy : 1.0 ≤ y) : x ≤ y := by
  have c := canonical_of_unpacked hx
  have low : -(k : Int) < -52 := by
    rcases c.full with full | least
    · have : 52 < k := (Nat.pow_lt_pow_iff_right (by decide)).mp (Nat.lt_of_le_of_lt full below)
      omega
    · omega
  rw [le_iff, unpacked_one] at hy
  rw [le_iff, hx]
  cases hu : unpacked y with
  | infinity s => cases s with
    | positive => rfl
    | negative => rw [hu] at hy; cases hy
  | notANumber => rw [hu] at hy; cases hy
  | zero s => rw [hu] at hy; cases hy
  | finite s m' e' h' =>
    rw [hu] at hy
    cases s with
    | negative => cases hy
    | positive =>
      have one : (compare (-52 : Int) e').then (compare (2 ^ 52) m') |>.isLE := hy
      have far : compare (-(k : Int)) e' = .lt := by
        refine Int.compare_eq_lt.mpr (Int.lt_of_not_ge fun above => ?_)
        rw [Int.compare_eq_gt.mpr (show e' < -52 by omega)] at one
        cases one
      have first : ((compare (-(k : Int)) e').then (compare m m')).isLE := by
        rw [far]
        rfl
      exact first

end Comparison

/-! ## Distances

Rounding does not look at the sign, so the distance of two doubles does not depend on which of them
comes first. -/

theorem roundWithAccuracy_abs (s s' : Sign) (m : Nat) (e : Int) (accuracy : Accuracy) :
    (roundWithAccuracy Format.binary64 s m e accuracy).abs =
      (roundWithAccuracy Format.binary64 s' m e accuracy).abs := by
  unfold roundWithAccuracy
  dsimp only
  split <;> rfl

theorem normalize_neg_abs (n : Int) (e : Int) :
    (UnpackedFloat.normalize Format.binary64 (-n) e .positive).abs =
      (UnpackedFloat.normalize Format.binary64 n e .positive).abs := by
  unfold UnpackedFloat.normalize
  rcases Int.lt_trichotomy n 0 with below | rfl | above
  · rw [Int.compare_eq_gt.mpr (show 0 < -n by omega), Int.compare_eq_lt.mpr below]
    exact roundWithAccuracy_abs ..
  · rfl
  · rw [Int.compare_eq_lt.mpr (show -n < 0 by omega), Int.compare_eq_gt.mpr above, Int.neg_neg]
    exact roundWithAccuracy_abs ..

theorem sub_abs_comm (u v : UnpackedFloat) :
    (UnpackedFloat.sub Format.binary64 u v).abs = (UnpackedFloat.sub Format.binary64 v u).abs := by
  cases u with
  | finite s m e h =>
    cases v with
    | finite s' m' e' h' =>
      simp only [UnpackedFloat.sub, decreaseExponent, min_comm e' e]
      rw [← Int.neg_sub, normalize_neg_abs]
    | _ => rfl
  | infinity s => cases v with
    | infinity s' => cases s <;> cases s' <;> rfl
    | _ => rfl
  | notANumber => cases v <;> rfl
  | zero s => cases v with
    | zero s' => cases s <;> cases s' <;> rfl
    | _ => rfl

theorem unpack_abs (s s' : Sign) (e : BitVec 11) (m : BitVec 52) :
    (unpack Format.binary64 (packComponents Format.binary64 s e m)).abs =
      (unpack Format.binary64 (packComponents Format.binary64 s' e m)).abs := by
  rcases components_cases e m with rfl | ⟨rfl, rfl⟩ | ⟨rfl, hm⟩ | ⟨low, high⟩
  · rw [unpack_last, unpack_last]
    split <;> rfl
  · rw [unpack_zero, unpack_zero]
    rfl
  · rw [unpack_subnormal s hm, unpack_subnormal s' hm]
    rfl
  · rw [unpack_normal s m low high, unpack_normal s' m low high]
    rfl

theorem pack_abs {u v : UnpackedFloat} (same : u.abs = v.abs) :
    (Float.Model.pack u).unpack.abs = (Float.Model.pack v).unpack.abs := by
  cases u with
  | finite s m e h =>
    cases v with
    | finite s' m' e' h' =>
      cases same
      change (unpack Format.binary64 (UnpackedFloat.pack Format.binary64 _)).abs =
        (unpack Format.binary64 (UnpackedFloat.pack Format.binary64 _)).abs
      unfold UnpackedFloat.pack
      dsimp only
      split
      · exact unpack_abs ..
      · split <;> exact unpack_abs ..
    | _ => cases same
  | infinity s => cases v with
    | infinity s' => exact unpack_abs ..
    | _ => cases same
  | notANumber => cases v with
    | notANumber => rfl
    | _ => cases same
  | zero s => cases v with
    | zero s' => exact unpack_abs ..
    | _ => cases same

theorem abs_sub_comm (x y : Float) : (x - y).abs = (y - x).abs := by
  apply eq_of_unpacked
  rw [unpacked_abs, unpacked_abs, unpacked_sub, unpacked_sub]
  exact pack_abs (sub_abs_comm _ _)

end CrystalModel.Double
