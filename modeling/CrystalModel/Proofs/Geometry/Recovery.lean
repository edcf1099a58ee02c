import CrystalModel.Proofs.Geometry.Boundary
import CrystalModel.Proofs.Geometry.Position

/-! # Decoding what was encoded

A decoded coordinate is the coordinate it was encoded from, up to the tolerance and to rounding,
where the cell fits its 32 bits and both tests for the boundary above agree. Everywhere else it is
off by at least one cell. -/
namespace CrystalModel

open Double

namespace Fractional

variable {t : Tolerance} {x y q : Float}

/-- A coordinate inside the origin cell. -/
def InCell (q : Float) : Prop := 0.0 ≤ q ∧ q < 1.0

instance : Decidable (InCell q) := inferInstanceAs (Decidable (_ ∧ _))

theorem InCell.value (h : InCell q) : q.isFinite = true ∧ 0 ≤ value q ∧ value q < 1 := by
  obtain ⟨low, high⟩ := h
  have finite : q.isFinite = true := by
    have lower := le_iff.mp low
    have upper := lt_iff.mp high
    rw [unpacked_zero] at lower
    rw [unpacked_one] at upper
    change (unpacked q).isFinite = true
    cases hq : unpacked q with
    | infinity s =>
      rw [hq] at lower upper
      cases s
      · cases lower
      · cases upper
    | notANumber =>
      rw [hq] at lower
      cases lower
    | _ => rfl
  have lower := (le_iff_value isFinite_zero finite).mp low
  have upper := (lt_iff_value finite isFinite_one).mp high
  rw [value_zero] at lower
  rw [value_one] at upper
  exact ⟨finite, lower, upper⟩

/-- A place is zero, or it is not taken for zero. -/
def Clear (t : Tolerance) (q : Float) : Prop := q = 0.0 ∨ t.isZero q = false

theorem trim_eq (t : Tolerance) (y : Float) : trim t y =
    if snapsUp t y || t.isZero (y - Numeric.floor y) then 0.0 else y - Numeric.floor y := rfl

section Place

variable (width : t.width.isFinite = true) (usable : 0 ≤ value t.width) (hq : InCell q)

include width hq

theorem place_of_zero (near : t.close q 0.0 = true) :
    value q ≤ value t.width ∧ (Clear t q → value q = 0) := by
  obtain ⟨finite, low, high⟩ := hq.value
  have whole : value q - value 0.0 = value q := by
    rw [value_zero]
    ring
  have small : |value q - value 0.0| ≤ 2 ^ 53 := by
    rw [whole, abs_le]
    constructor <;> linarith
  rw [Tolerance.close_value width finite isFinite_zero small,
    sub_exact finite isFinite_zero small (by rw [whole]; exact .value q), whole,
    abs_of_nonneg low] at near
  refine ⟨near, ?_⟩
  intro trimmed
  rcases trimmed with rfl | large
  · exact value_zero
  · have zero : t.isZero q = true := by
      rw [Tolerance.isZero_value width finite, abs_of_nonneg low]
      exact near
    rw [zero] at large
    cases large

/-- A coordinate that is taken for the boundary above it has its place at zero. -/
theorem place_of_snapped (hy : y.isFinite = true) (snaps : snapsUp t y = true)
    (near : t.close q 0.0 = true) :
    |value q - (value y - (⌊value y⌋ + 1 : ℤ))| ≤ 2 * value t.width + 2 / 2 ^ 52 ∧
      (Clear t q →
        |value q - (value y - (⌊value y⌋ + 1 : ℤ))| ≤ value t.width + 2 / 2 ^ 52) := by
  obtain ⟨_, low, _⟩ := hq.value
  obtain ⟨restFinite, rest⟩ := fraction_rounds hy
  have floorLow := Int.floor_le (value y)
  have floorHigh := Int.lt_floor_add_one (value y)
  obtain ⟨restLow, restHigh⟩ := fraction_bounds hy
  obtain ⟨small, zero⟩ := place_of_zero width hq near
  obtain ⟨errorLow, _⟩ := abs_le.mp (rest.error one_pos (floor_near _))
  have gap := (sub_rounds restFinite isFinite_one (small_of_le (fraction_near_one hy))).2.error
    one_pos (by rw [value_one, abs_le]; constructor <;> linarith)
  rw [value_one] at gap
  obtain ⟨gapLow, gapHigh⟩ := abs_le.mp gap
  obtain ⟨closeLow, _⟩ := abs_le.mp ((snapsUp_iff width hy).mp snaps)
  have beneath : -(value t.width + 2 / 2 ^ 52) ≤ value y - ⌊value y⌋ - 1 := by linarith
  push_cast
  refine ⟨?_, fun clear => ?_⟩
  · rw [abs_le]
    constructor <;> linarith
  · rw [zero clear, abs_le]
    constructor <;> linarith

theorem place_of_inside (hy : y.isFinite = true) (snaps : snapsUp t y = false)
    (near : t.close q (trim t y) = true) :
    |value q - (value y - ⌊value y⌋)| ≤ value t.width + 2 / 2 ^ 52 := by
  obtain ⟨finite, low, high⟩ := hq.value
  obtain ⟨restFinite, rest⟩ := fraction_rounds hy
  obtain ⟨restLow, restHigh⟩ := fraction_bounds hy
  have floorLow := Int.floor_le (value y)
  obtain ⟨errorLow, errorHigh⟩ := abs_le.mp (rest.error one_pos (floor_near _))
  rw [trim_eq, snaps, Bool.false_or] at near
  by_cases zero : t.isZero (y - Numeric.floor y) = true
  · rw [if_pos zero] at near
    obtain ⟨small, _⟩ := place_of_zero width hq near
    have beneath := (Tolerance.isZero_value width restFinite).mp zero
    rw [abs_of_nonneg restLow] at beneath
    rw [abs_le]
    constructor <;> linarith
  · rw [if_neg zero] at near
    have small : |value q - value (y - Numeric.floor y)| ≤ 1 := by
      rw [abs_le]
      constructor <;> linarith
    have gap := (sub_rounds finite restFinite (small_of_le (small.trans (by norm_num)))).2.error
      one_pos small
    obtain ⟨gapLow, gapHigh⟩ := abs_le.mp gap
    obtain ⟨closeLow, closeHigh⟩ := abs_le.mp
      ((Tolerance.close_value width finite restFinite (small.trans (by norm_num))).mp near)
    rw [abs_le]
    constructor <;> linarith

include usable in
/-- A place that is found inside the origin cell is as far from the cells that were taken off as
the tolerance allows, twice where the place was taken for zero from both sides. -/
theorem place_error (hy : y.isFinite = true) (near : t.close q (trim t y) = true) :
    |value q - (value y - takenOff t y)| ≤ 2 * value t.width + 2 / 2 ^ 52 ∧
      (Clear t q → |value q - (value y - takenOff t y)| ≤ value t.width + 2 / 2 ^ 52) := by
  cases snaps : snapsUp t y with
  | true =>
    rw [trim_eq, snaps] at near
    rw [takenOff, snaps]
    exact place_of_snapped width hq hy snaps near
  | false =>
    have close := place_of_inside width hq hy snaps near
    rw [takenOff, snaps, if_neg Bool.false_ne_true, Int.add_zero]
    exact ⟨close.trans (by linarith), fun _ => close⟩

end Place

/-- What rounding adds to the distance of a decoded coordinate: some units in the last of 53 bits
that the cell needs. -/
def rounding (c : Int32) : ℚ := (|(c.toInt : ℚ)| + 5) / 2 ^ 52

theorem rounding_nonneg (c : Int32) : 0 ≤ rounding c := by
  unfold rounding
  positivity

theorem far_of_cells {w z e : ℚ} {n : ℤ} (cells : n ≠ 0) (near : |w - (z - n)| ≤ e) :
    1 - e ≤ |w - z| := by
  have whole : (1 : ℚ) ≤ |(n : ℚ)| := by exact_mod_cast Int.one_le_abs cells
  have split : |(n : ℚ)| ≤ |w - (z - n)| + |w - z| := by
    refine le_trans (le_of_eq ?_) (abs_sub _ _)
    congr 1
    ring
  linarith

theorem moved_rounds (hq : InCell q) (c : Int32) :
    (c.toInt : ℚ) ≤ value (q + Numeric.ofInt32 c) ∧
      value (q + Numeric.ofInt32 c) ≤ c.toInt + 1 ∧
      |value (q + Numeric.ofInt32 c) - (value q + c.toInt)| ≤ (|(c.toInt : ℚ)| + 1) / 2 ^ 52 := by
  obtain ⟨finite, low, high⟩ := hq.value
  obtain ⟨offsetFinite, offset⟩ := ofInt32_value c
  have least := c.le_toInt
  have most := c.toInt_lt
  have range : |(c.toInt : ℚ)| ≤ 2 ^ 31 := by
    rw [abs_le]
    constructor
    · exact_mod_cast least
    · exact_mod_cast most.le
  have bound : |value q + c.toInt| ≤ |(c.toInt : ℚ)| + 1 := by
    refine (abs_add_le _ _).trans ?_
    rw [abs_of_nonneg low]
    linarith
  have rounds := (add_rounds finite offsetFinite (by
    rw [offset]
    exact small_of_le (bound.trans (by linarith)))).2
  rw [offset] at rounds
  refine ⟨rounds.ge_of_ge (.of_int ?_) (by linarith), ?_, ?_⟩
  · rw [abs_le]
    omega
  · have next : Short ((c.toInt + 1 : ℤ) : ℚ) := .of_int (by rw [abs_le]; omega)
    have := rounds.le_of_le next (by push_cast; linarith)
    exact_mod_cast this
  · exact rounds.error (by positivity) bound

section Decoded

variable (width : t.width.isFinite = true) (usable : 0 ≤ value t.width) (hx : x.isFinite = true)
  (hq : InCell q) (near : t.close q (inner t x) = true)

include width usable hx hq near

/-- The decoded coordinate is off by the cells that were taken off the place inside the cell. -/
theorem decoded_error (close : |value x - (cell t x).toInt| ≤ 2) :
    |value (q + Numeric.ofInt32 (cell t x)) -
        (value x - takenOff t (x - Numeric.ofInt32 (cell t x)))| ≤
      2 * value t.width + rounding (cell t x) ∧
    (Clear t q → |value (q + Numeric.ofInt32 (cell t x)) -
        (value x - takenOff t (x - Numeric.ofInt32 (cell t x)))| ≤
      value t.width + rounding (cell t x)) := by
  obtain ⟨finite, rounds⟩ := shifted_rounds hx (cell t x) (close.trans (by norm_num))
  have shift := rounds.error two_pos close
  have place := (moved_rounds hq (cell t x)).2.2
  obtain ⟨found, clear⟩ := place_error width usable hq finite near
  have triangle : |value (q + Numeric.ofInt32 (cell t x)) -
      (value x - takenOff t (x - Numeric.ofInt32 (cell t x)))| ≤
      |value (q + Numeric.ofInt32 (cell t x)) - (value q + (cell t x).toInt)| +
      |value q - (value (x - Numeric.ofInt32 (cell t x)) -
        takenOff t (x - Numeric.ofInt32 (cell t x)))| +
      |value (x - Numeric.ofInt32 (cell t x)) - (value x - (cell t x).toInt)| := by
    refine le_trans (le_of_eq ?_) (abs_add_three _ _ _)
    congr 1
    ring
  unfold rounding
  refine ⟨?_, fun apart => ?_⟩
  · linarith
  · have found := clear apart
    linarith

/-- A coordinate after its way through a code: its cell, its distance to what it was, and what
these depend on. -/
structure Recovered (t : Tolerance) (x q w : Float) : Prop where
  offset : (cell t x).toInt = wholeCell t x ↔ Fits t x
  near : Fits t x → movedUp t x = snapsUp t x →
    |value w - value x| ≤ 2 * value t.width + rounding (cell t x)
  clear : Fits t x → movedUp t x = snapsUp t x → Clear t q →
    |value w - value x| ≤ value t.width + rounding (cell t x)
  lost : ¬(Fits t x ∧ movedUp t x = snapsUp t x) →
    1 - 2 * value t.width - rounding (cell t x) ≤ |value w - value x|

omit width usable hx near in
theorem decoded_far (far : 2 < |value x - (cell t x).toInt|) :
    1 ≤ |value (q + Numeric.ofInt32 (cell t x)) - value x| := by
  obtain ⟨low, high, _⟩ := moved_rounds hq (cell t x)
  have inside : |value (q + Numeric.ofInt32 (cell t x)) - (cell t x).toInt| ≤ 1 := by
    rw [abs_le]
    constructor <;> linarith
  have split : |value x - (cell t x).toInt| ≤
      |value (q + Numeric.ofInt32 (cell t x)) - (cell t x).toInt| +
      |value (q + Numeric.ofInt32 (cell t x)) - value x| := by
    refine le_trans (le_of_eq ?_) (abs_sub _ _)
    congr 1
    ring
  linarith

theorem decoded_recovered : Recovered t x q (q + Numeric.ofInt32 (cell t x)) := by
  have kept : ∀ {a : ℚ}, |a - (value x - (0 : ℤ))| = |a - value x| := by
    intro a
    congr 1
    push_cast
    ring
  constructor
  · exact cell_eq_iff_fits hx
  · intro fits agree
    have close := (cell_near hx fits).trans one_le_two
    have error := (decoded_error width usable hx hq near close).1
    rwa [(takenOff_of_fits width usable hx fits).mpr agree, kept] at error
  · intro fits agree apart
    have close := (cell_near hx fits).trans one_le_two
    have error := (decoded_error width usable hx hq near close).2 apart
    rwa [(takenOff_of_fits width usable hx fits).mpr agree, kept] at error
  · intro unlike
    by_cases close : |value x - (cell t x).toInt| ≤ 2
    · have error := (decoded_error width usable hx hq near close).1
      have cells : takenOff t (x - Numeric.ofInt32 (cell t x)) ≠ 0 := by
        by_cases fits : Fits t x
        · exact mt (takenOff_of_fits width usable hx fits).mp fun agree => unlike ⟨fits, agree⟩
        · exact takenOff_of_not_fits width hx fits close
      have := far_of_cells cells error
      linarith
    · have := decoded_far (t := t) (x := x) hq (not_le.mp close)
      have := rounding_nonneg (cell t x)
      linarith

end Decoded

end Fractional

namespace Encoder

open Fractional

variable {e : Encoder} {v : Point} {code : CrystalVector}

def InCell (e : Encoder) : Prop :=
  ∀ p ∈ e.positions, Fractional.InCell p.x ∧ Fractional.InCell p.y ∧ Fractional.InCell p.z

/-- Where a code leads to: one of the positions, moved into the cell of the code. -/
theorem decode_of_encode (few : e.positions.length ≤ 2 ^ 31) (h : e.encode v = some code) :
    ∃ p ∈ e.positions, e.tolerance.closePoints p (innerPoint e.tolerance v) = true ∧
      e.decode code = some (p + ofOffset (cellOf e.tolerance v)) := by
  obtain ⟨place, found, rfl⟩ := encode_eq_some.mp h
  obtain ⟨inside, near, _⟩ := List.findIdx?_eq_some_iff_getElem.mp found
  refine ⟨e.positions[place], List.getElem_mem inside, near, ?_⟩
  have number : (Int32.ofNat place).toInt = place := Int32.toInt_ofNat_of_lt (by omega)
  unfold decode
  rw [if_neg, number, Int.toNat_natCast, List.getElem?_eq_getElem inside]
  · rfl
  · rw [Int32.lt_iff_toInt_lt, number]
    exact not_lt.mpr (Int.natCast_nonneg place)

/-- A vector that was encoded is decoded to itself, up to the tolerance and to rounding, in all
coordinates whose cell fits and for which both tests of the boundary agree. In the others it comes
back off by at least a cell. -/
theorem decode_recovers (width : e.tolerance.width.isFinite = true)
    (few : e.positions.length ≤ 2 ^ 31) (inside : e.InCell)
    (finite : v.x.isFinite = true ∧ v.y.isFinite = true ∧ v.z.isFinite = true)
    (h : e.encode v = some code) : ∃ p ∈ e.positions, ∃ w, e.decode code = some w ∧
      Recovered e.tolerance v.x p.x w.x ∧ Recovered e.tolerance v.y p.y w.y ∧
      Recovered e.tolerance v.z p.z w.z := by
  have usable := (le_iff_value isFinite_zero width).mp (usable_of_encode h)
  rw [value_zero] at usable
  obtain ⟨p, hp, near, decoded⟩ := decode_of_encode few h
  rw [innerPoint_eq] at near
  obtain ⟨nearX, nearY, nearZ⟩ := Tolerance.closePoints_iff.mp near
  obtain ⟨inX, inY, inZ⟩ := inside p hp
  exact ⟨p, hp, _, decoded, decoded_recovered width usable finite.1 inX nearX,
    decoded_recovered width usable finite.2.1 inY nearY,
    decoded_recovered width usable finite.2.2 inZ nearZ⟩

/-- A single position, just beneath a boundary of the cell. -/
def beneathCorner : Encoder := ⟨[⟨0.9999985, 0.0, 0.0⟩], .cubic 3.0, .standard⟩

theorem beneathCorner_lost : ∃ code w, beneathCorner.encode ⟨-1.0e-6, 0.0, 0.0⟩ = some code ∧
    beneathCorner.decode code = some w ∧ 1 / 2 ≤ |value w.x - value (-1.0e-6)| := by
  have encoded : beneathCorner.encode ⟨-1.0e-6, 0.0, 0.0⟩ = some ⟨0, 0, 0, 0⟩ := by decide +kernel
  have inside : beneathCorner.InCell := by
    intro p hp
    obtain rfl := List.mem_singleton.mp hp
    decide +kernel
  obtain ⟨p, _, w, decoded, x, _⟩ := decode_recovers (e := beneathCorner) (by decide +kernel)
    (by decide) inside (by decide +kernel) encoded
  have differ : movedUp beneathCorner.tolerance (-1.0e-6) ≠
      snapsUp beneathCorner.tolerance (-1.0e-6) := by decide +kernel
  have far : 1 / 2 ≤ 1 - 2 * value beneathCorner.tolerance.width -
      rounding (Fractional.cell beneathCorner.tolerance (-1.0e-6)) := by decide +kernel
  exact ⟨_, w, encoded, decoded, far.trans (x.lost fun both => differ both.2)⟩

/-- Beyond the range of 32 bits, the place inside the cell does not tell that the cell is wrong. -/
example : (Encoder.mk [Point.zero] (.cubic 3.0) .standard).encode ⟨3.0e9, 0.0, 0.0⟩ =
    some ⟨2147483647, 0, 0, 0⟩ := by decide +kernel

end Encoder

end CrystalModel
