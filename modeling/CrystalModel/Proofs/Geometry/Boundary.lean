import CrystalModel.Proofs.Geometry.Fractional
import CrystalModel.Proofs.Numeric.Whole

/-! # The two tests for an upper boundary

The cell of a coordinate and the place inside it are found one after the other. Just below a cell
boundary both are moved up, each by a test of its own, and the cell is kept in 32 bits. The place
lies in the cell that was taken off when the cell fits and both tests give the same answer. -/
namespace CrystalModel

open Double

namespace Tolerance

variable {t : Tolerance} {a a' b b' : Float}

theorem close_value (width : t.width.isFinite = true) (ha : a.isFinite = true)
    (hb : b.isFinite = true) (small : |value a - value b| ≤ 2 ^ 53) :
    t.close a b = true ↔ |value (a - b)| ≤ value t.width := by
  have finite := (sub_rounds ha hb (small_of_le small)).1
  rw [close_iff, le_iff_value ((isFinite_abs _).trans finite) width, value_abs]

theorem isZero_value (width : t.width.isFinite = true) (ha : a.isFinite = true) :
    t.isZero a = true ↔ |value a| ≤ value t.width := by
  rw [isZero, decide_eq_true_eq, le_iff_value ((isFinite_abs _).trans ha) width, value_abs]

theorem close_congr (width : t.width.isFinite = true) (ha : a.isFinite = true)
    (ha' : a'.isFinite = true) (hb : b.isFinite = true) (hb' : b'.isFinite = true)
    (left : value a = value a') (right : value b = value b')
    (small : |value a - value b| ≤ 2 ^ 53) : t.close a b = t.close a' b' := by
  rw [Bool.eq_iff_iff, close_value width ha hb small,
    value_sub_congr ha ha' hb hb' left right small]
  rw [left, right] at small
  rw [close_value width ha' hb' small]

end Tolerance

namespace Fractional

variable {t : Tolerance} {x y : Float}

/-- Whether a coordinate is taken to lie on the boundary above it, when its cell is looked for. -/
def movedUp (t : Tolerance) (x : Float) : Bool := t.close x (Numeric.floor x + 1.0)

/-- Whether it is, when its place inside the cell is looked for. -/
def snapsUp (t : Tolerance) (x : Float) : Bool := t.close (x - Numeric.floor x) 1.0

/-- The number of the cell that a coordinate lies in, of whatever size. -/
def wholeCell (t : Tolerance) (x : Float) : ℤ := ⌊value x⌋ + if movedUp t x then 1 else 0

/-- The cell is not outside of 32 bits, neither before it is moved up nor after that. -/
structure Fits (t : Tolerance) (x : Float) : Prop where
  low : -2 ^ 31 ≤ ⌊value x⌋
  high : wholeCell t x < 2 ^ 31

/-- How many cells a place is moved down by when it is moved into the origin cell. -/
def takenOff (t : Tolerance) (y : Float) : ℤ := ⌊value y⌋ + if snapsUp t y then 1 else 0

theorem cell_eq (t : Tolerance) (x : Float) : cell t x =
    if movedUp t x then Numeric.toInt32 (Numeric.floor x) + 1
      else Numeric.toInt32 (Numeric.floor x) := rfl

theorem cell_stays (hx : x.isFinite = true) (stays : movedUp t x = false) :
    (cell t x).toInt = max (-2 ^ 31) (min ⌊value x⌋ (2 ^ 31 - 1)) ∧ wholeCell t x = ⌊value x⌋ := by
  obtain ⟨finite, whole⟩ := floor_value hx
  rw [wholeCell, cell_eq, stays]
  exact ⟨toInt32_value finite whole, Int.add_zero _⟩

theorem cell_moves (hx : x.isFinite = true) (moves : movedUp t x = true) :
    (cell t x).toInt = (if ⌊value x⌋ < 2 ^ 31 - 1 then max (-2 ^ 31) ⌊value x⌋ + 1 else -2 ^ 31) ∧
      wholeCell t x = ⌊value x⌋ + 1 := by
  obtain ⟨finite, whole⟩ := floor_value hx
  rw [wholeCell, cell_eq, moves]
  refine ⟨?_, rfl⟩
  rw [if_pos rfl, Int32.toInt_add, toInt32_value finite whole]
  change (_ + 1 : ℤ).bmod (2 ^ 32) = _
  rw [Int.bmod_def]
  split <;> split <;> omega

theorem cell_of_fits (hx : x.isFinite = true) (fits : Fits t x) :
    (cell t x).toInt = wholeCell t x := by
  have low := fits.low
  have high := fits.high
  cases up : movedUp t x with
  | false =>
    obtain ⟨kept, whole⟩ := cell_stays hx up
    omega
  | true =>
    obtain ⟨kept, whole⟩ := cell_moves hx up
    split at kept <;> omega

theorem cell_eq_iff_fits (hx : x.isFinite = true) :
    (cell t x).toInt = wholeCell t x ↔ Fits t x := by
  refine ⟨fun same => ?_, cell_of_fits hx⟩
  have below := (cell t x).toInt_lt
  cases up : movedUp t x with
  | false =>
    obtain ⟨kept, whole⟩ := cell_stays hx up
    exact ⟨by omega, by omega⟩
  | true =>
    obtain ⟨kept, whole⟩ := cell_moves hx up
    split at kept <;> exact ⟨by omega, by omega⟩

theorem floor_near (z : ℚ) : |z - ⌊z⌋| ≤ 1 := by
  have low := Int.floor_le z
  have high := Int.lt_floor_add_one z
  rw [abs_le]
  constructor <;> linarith

theorem next_near (z : ℚ) : |z - (⌊z⌋ + 1 : ℤ)| ≤ 1 := by
  have low := Int.floor_le z
  have high := Int.lt_floor_add_one z
  rw [abs_le]
  push_cast
  constructor <;> linarith

theorem cell_near (hx : x.isFinite = true) (fits : Fits t x) :
    |value x - (cell t x).toInt| ≤ 1 := by
  rw [cell_of_fits hx fits, wholeCell]
  split
  · exact next_near _
  · rw [Int.add_zero]
    exact floor_near _

/-! ## Two differences -/

theorem fraction_rounds (hy : y.isFinite = true) : (y - Numeric.floor y).isFinite = true ∧
    Rounds (value (y - Numeric.floor y)) (value y - ⌊value y⌋) := by
  obtain ⟨finite, whole⟩ := floor_value hy
  have small : |value y - ⌊value y⌋| ≤ 2 ^ 53 := (floor_near _).trans (by norm_num)
  rw [← whole] at small ⊢
  exact sub_rounds hy finite (small_of_le small)

theorem fraction_exact (hy : y.isFinite = true) (short : Short (value y - ⌊value y⌋)) :
    value (y - Numeric.floor y) = value y - ⌊value y⌋ :=
  (fraction_rounds hy).2.eq_of_short short

theorem shifted_rounds (hx : x.isFinite = true) (c : Int32)
    (small : |value x - c.toInt| ≤ 2 ^ 53) : (x - Numeric.ofInt32 c).isFinite = true ∧
      Rounds (value (x - Numeric.ofInt32 c)) (value x - c.toInt) := by
  obtain ⟨finite, whole⟩ := ofInt32_value c
  rw [← whole] at small ⊢
  exact sub_rounds hx finite (small_of_le small)

theorem fraction_bounds (hy : y.isFinite = true) :
    0 ≤ value (y - Numeric.floor y) ∧ value (y - Numeric.floor y) ≤ 1 := by
  have rounds := (fraction_rounds hy).2
  have low := Int.floor_le (value y)
  have high := Int.lt_floor_add_one (value y)
  have most := rounds.le_of_le (.of_int (n := 1) (by decide)) (by push_cast; linarith)
  rw [Int.cast_one] at most
  exact ⟨rounds.ge_of_ge .zero (sub_nonneg.mpr low), most⟩

theorem fraction_near_one (hx : x.isFinite = true) :
    |value (x - Numeric.floor x) - value 1.0| ≤ 2 ^ 53 := by
  obtain ⟨low, high⟩ := fraction_bounds hx
  rw [value_one, abs_le]
  constructor <;> linarith

theorem snapsUp_iff (width : t.width.isFinite = true) (hx : x.isFinite = true) :
    snapsUp t x = true ↔ |value (x - Numeric.floor x - 1.0)| ≤ value t.width :=
  Tolerance.close_value width (fraction_rounds hx).1 isFinite_one (fraction_near_one hx)

theorem snapsUp_of_one (width : t.width.isFinite = true) (usable : 0 ≤ value t.width)
    (hx : x.isFinite = true) (one : value (x - Numeric.floor x) = 1) : snapsUp t x = true := by
  have meets : value (x - Numeric.floor x) - value 1.0 = 0 := by
    rw [one, value_one]
    ring
  rw [snapsUp_iff width hx, sub_exact (fraction_rounds hx).1 isFinite_one (fraction_near_one hx)
    (meets ▸ Short.zero), meets, abs_zero]
  exact usable

theorem snapsUp_congr (width : t.width.isFinite = true) (hx : x.isFinite = true)
    (hy : y.isFinite = true)
    (same : value (x - Numeric.floor x) = value (y - Numeric.floor y)) :
    snapsUp t x = snapsUp t y :=
  Tolerance.close_congr width (fraction_rounds hx).1 (fraction_rounds hy).1 isFinite_one
    isFinite_one same rfl (fraction_near_one hx)

theorem snapsUp_beneath (width : t.width.isFinite = true) (hy : y.isFinite = true)
    (least : -1 ≤ value y) (most : value y ≤ -(1 / 2)) :
    ⌊value y⌋ = -1 ∧ (snapsUp t y = true ↔ |value y| ≤ value t.width) := by
  have floor : ⌊value y⌋ = -1 := by
    rw [Int.floor_eq_iff]
    push_cast
    constructor <;> linarith
  have short : Short (value y - ⌊value y⌋) := by
    refine short_sub_int hy (a := -1) ?_ (by decide) ((floor_near _).trans (by norm_num))
    rw [abs_of_nonpos (by linarith)]
    norm_num
    linarith
  have same : value (y - Numeric.floor y) - value 1.0 = value y := by
    rw [fraction_exact hy short, floor, value_one]
    push_cast
    ring
  rw [snapsUp_iff width hy, sub_exact (fraction_rounds hy).1 isFinite_one (fraction_near_one hy)
    (same ▸ Short.value y), same]
  exact ⟨floor, Iff.rfl⟩

/-! ## The next cell -/

section NextCell

variable (hx : x.isFinite = true) {c : Int32} (next : c.toInt = ⌊value x⌋ + 1)

include hx next

theorem next_rounds : (x - Numeric.ofInt32 c).isFinite = true ∧
    Rounds (value (x - Numeric.ofInt32 c)) (value x - ⌊value x⌋ - 1) := by
  have whole : value x - c.toInt = value x - ⌊value x⌋ - 1 := by
    rw [next]
    push_cast
    ring
  rw [← whole]
  refine shifted_rounds hx c ?_
  rw [next]
  exact (next_near _).trans (by norm_num)

variable (width : t.width.isFinite = true)

include width

theorem movedUp_iff : movedUp t x = true ↔
    |value (x - Numeric.ofInt32 c)| ≤ value t.width := by
  obtain ⟨finite, whole⟩ := floor_value hx
  obtain ⟨offsetFinite, offset⟩ := ofInt32_value c
  have inRange : |⌊value x⌋ + 1| ≤ 2 ^ 31 := by
    have := c.le_toInt
    have := c.toInt_lt
    rw [abs_le]
    omega
  have above : value (Numeric.floor x) + value 1.0 = (⌊value x⌋ + 1 : ℤ) := by
    rw [whole, value_one]
    push_cast
    rfl
  have short : Short (value (Numeric.floor x) + value 1.0) :=
    above ▸ .of_int (inRange.trans (by decide))
  have small : |value (Numeric.floor x) + value 1.0| ≤ 2 ^ 1000 := by
    rw [above]
    refine small_of_le ?_
    exact_mod_cast inRange.trans (by decide)
  obtain ⟨nextFinite, rounds⟩ := add_rounds finite isFinite_one small
  have unrounded := rounds.eq_of_short short
  have same : value (Numeric.floor x + 1.0) = value (Numeric.ofInt32 c) := by
    rw [unrounded, above, offset, next]
  have near : |value x - value (Numeric.floor x + 1.0)| ≤ 2 ^ 53 := by
    rw [unrounded, above]
    exact (next_near _).trans (by norm_num)
  rw [movedUp, Tolerance.close_value width hx nextFinite near,
    value_sub_congr hx hx nextFinite offsetFinite rfl same near]

/-- Just below the origin cell nothing is taken off, and both floors are the same. -/
theorem next_of_origin (origin : ⌊value x⌋ = -1) : ⌊value (x - Numeric.ofInt32 c)⌋ = -1 ∧
    snapsUp t (x - Numeric.ofInt32 c) = snapsUp t x := by
  obtain ⟨finite, rounds⟩ := next_rounds hx next
  have whole : value x - ⌊value x⌋ - 1 = value x := by
    rw [origin]
    push_cast
    ring
  have unrounded : value (x - Numeric.ofInt32 c) = value x :=
    (whole ▸ rounds).eq_of_short (.value x)
  refine ⟨unrounded ▸ origin, snapsUp_congr width finite hx ?_⟩
  obtain ⟨floorFinite, floor⟩ := floor_value hx
  obtain ⟨floorFinite', floor'⟩ := floor_value finite
  refine value_sub_congr finite hx floorFinite' floorFinite unrounded ?_ ?_
  · rw [floor', floor, unrounded]
  · rw [floor', unrounded]
    exact (floor_near _).trans (by norm_num)

omit width in
theorem exact_of_large (large : 2 ^ (-1 : ℤ) ≤ |value x|) :
    value (x - Numeric.ofInt32 c) = value x - ⌊value x⌋ - 1 ∧ Short (value x - ⌊value x⌋) := by
  have short : ∀ n : ℤ, |value x - n| ≤ 1 → Short (value x - n) := by
    intro n near
    exact short_sub_int hx large (by decide) (near.trans_eq (by norm_num))
  have below := short _ (next_near (value x))
  push_cast at below
  rw [← sub_sub] at below
  exact ⟨(next_rounds hx next).2.eq_of_short below, short _ (floor_near _)⟩

theorem next_of_large (large : 2 ^ (-1 : ℤ) ≤ |value x|) :
    ⌊value (x - Numeric.ofInt32 c)⌋ = -1 ∧
      snapsUp t (x - Numeric.ofInt32 c) = snapsUp t x := by
  have finite := (next_rounds hx next).1
  obtain ⟨unrounded, rest⟩ := exact_of_large hx next large
  have low := Int.floor_le (value x)
  have high := Int.lt_floor_add_one (value x)
  have floor : ⌊value (x - Numeric.ofInt32 c)⌋ = -1 := by
    rw [Int.floor_eq_iff, unrounded]
    push_cast
    constructor <;> linarith
  have same : value (x - Numeric.ofInt32 c) - ⌊value (x - Numeric.ofInt32 c)⌋ =
      value x - ⌊value x⌋ := by
    rw [floor, unrounded]
    push_cast
    ring
  refine ⟨floor, snapsUp_congr width finite hx ?_⟩
  rw [fraction_exact hx rest, fraction_exact finite (same ▸ rest), same]

/-- The two tests differ at small coordinates only. -/
theorem movedUp_of_large (large : 2 ^ (-1 : ℤ) ≤ |value x|) : movedUp t x = snapsUp t x := by
  obtain ⟨unrounded, rest⟩ := exact_of_large hx next large
  have same : value (x - Numeric.floor x) - value 1.0 = value (x - Numeric.ofInt32 c) := by
    rw [fraction_exact hx rest, value_one, unrounded]
  rw [Bool.eq_iff_iff, movedUp_iff hx next width, snapsUp_iff width hx,
    sub_exact (fraction_rounds hx).1 isFinite_one (fraction_near_one hx) (same ▸ Short.value _),
    same]

theorem next_of_small (bottom : ⌊value x⌋ = 0) (small : value x ≤ 2 ^ (-1 : ℤ))
    (moves : movedUp t x = true) : ⌊value (x - Numeric.ofInt32 c)⌋ = -1 ∧
      snapsUp t (x - Numeric.ofInt32 c) = snapsUp t x := by
  obtain ⟨finite, rounds⟩ := next_rounds hx next
  obtain ⟨offsetFinite, offset⟩ := ofInt32_value c
  have near := (movedUp_iff hx next width).mp moves
  have low := Int.floor_le (value x)
  rw [bottom, Int.cast_zero] at low
  have whole : value x - ⌊value x⌋ - 1 = value x - 1 := by
    rw [bottom]
    push_cast
    ring
  rw [whole] at rounds
  have snaps' : snapsUp t x = true := by
    have same : value (x - Numeric.floor x) = value x := by
      have itself : value x - ⌊value x⌋ = value x := by
        rw [bottom]
        push_cast
        ring
      rw [fraction_exact hx (by rw [itself]; exact .value x), itself]
    rw [snapsUp_iff width hx, value_sub_congr (fraction_rounds hx).1 hx isFinite_one offsetFinite
      same (by rw [value_one, offset, next, bottom]; push_cast; ring) (fraction_near_one hx)]
    exact near
  have half : (2 : ℚ) ^ (-1 : ℤ) = 1 / 2 := by norm_num
  rw [half] at small
  have least := rounds.ge_of_ge (.of_int (n := -1) (by decide)) (by push_cast; linarith)
  have most := rounds.le_of_le (d := -(1 / 2)) ⟨-1, -1, by norm_num, by decide⟩ (by linarith)
  push_cast at least
  obtain ⟨floor, snaps⟩ := snapsUp_beneath width finite least most
  exact ⟨floor, (snaps.mpr near).trans snaps'.symm⟩

theorem next_of_moves (moves : movedUp t x = true) : ⌊value (x - Numeric.ofInt32 c)⌋ = -1 ∧
    snapsUp t (x - Numeric.ofInt32 c) = snapsUp t x := by
  by_cases origin : ⌊value x⌋ = -1
  · exact next_of_origin hx next width origin
  by_cases large : 2 ^ (-1 : ℤ) ≤ |value x|
  · exact next_of_large hx next width large
  · obtain ⟨above, below⟩ := abs_lt.mp (not_le.mp large)
    have half : (2 : ℚ) ^ (-1 : ℤ) = 1 / 2 := by norm_num
    have low : -1 ≤ ⌊value x⌋ := Int.le_floor.mpr (by rw [half] at above; push_cast; linarith)
    have high : ⌊value x⌋ < 1 := Int.floor_lt.mpr (by rw [half] at below; push_cast; linarith)
    exact next_of_small hx next width (by omega) below.le moves

end NextCell

/-! ## What is taken off -/

section TakenOff

variable (width : t.width.isFinite = true) (usable : 0 ≤ value t.width) (hx : x.isFinite = true)

include width usable hx

theorem takenOff_of_stays (fits : Fits t x) (stays : movedUp t x = false) :
    takenOff t (x - Numeric.ofInt32 (cell t x)) = 0 ↔ snapsUp t x = false := by
  obtain ⟨_, same⟩ := cell_stays hx stays
  have kept := (cell_of_fits hx fits).trans same
  obtain ⟨floorFinite, whole⟩ := floor_value hx
  obtain ⟨offsetFinite, offset⟩ := ofInt32_value (cell t x)
  have low := Int.floor_le (value x)
  have high := Int.lt_floor_add_one (value x)
  have small : |value x - (cell t x).toInt| ≤ 2 ^ 53 := by
    rw [kept]
    exact (floor_near _).trans (by norm_num)
  obtain ⟨finite, rounds⟩ := shifted_rounds hx (cell t x) small
  have left : value (x - Numeric.ofInt32 (cell t x)) = value (x - Numeric.floor x) := by
    refine value_sub_congr hx hx offsetFinite floorFinite rfl ?_ (offset ▸ small)
    rw [offset, whole, kept]
  rw [kept] at rounds
  have least := rounds.ge_of_ge .zero (by linarith)
  have most := rounds.le_of_le (.of_int (n := 1) (by decide)) (by push_cast; linarith)
  rw [Int.cast_one] at most
  rcases eq_or_lt_of_le most with one | below
  · have snaps := snapsUp_of_one width usable hx (left ▸ one)
    have floor : ⌊value (x - Numeric.ofInt32 (cell t x))⌋ = 1 := by rw [one, Int.floor_one]
    refine iff_of_false ?_ (by rw [snaps]; decide)
    rw [takenOff, floor]
    split <;> decide
  · have floor : ⌊value (x - Numeric.ofInt32 (cell t x))⌋ = 0 :=
      Int.floor_eq_zero_iff.mpr ⟨least, below⟩
    have unrounded := fraction_exact finite (by
      rw [floor, Int.cast_zero]
      convert Short.value (x - Numeric.ofInt32 (cell t x)) using 1
      ring)
    have snaps : snapsUp t (x - Numeric.ofInt32 (cell t x)) = snapsUp t x := by
      refine snapsUp_congr width finite hx (unrounded.trans ?_)
      rw [floor, left, Int.cast_zero]
      ring
    rw [takenOff, floor, snaps]
    cases snapsUp t x <;> decide

theorem takenOff_of_fits (fits : Fits t x) :
    takenOff t (x - Numeric.ofInt32 (cell t x)) = 0 ↔ movedUp t x = snapsUp t x := by
  cases up : movedUp t x with
  | false => rw [takenOff_of_stays width usable hx fits up, eq_comm]
  | true =>
    have next := (cell_of_fits hx fits).trans (cell_moves hx up).2
    obtain ⟨floor, snaps⟩ := next_of_moves hx next width up
    rw [takenOff, floor, snaps]
    cases snapsUp t x <;> decide

omit width usable in
/-- More than one cell is left, and they are all moved through. -/
theorem takenOff_of_below {c : Int32} (large : 1 ≤ |value x|) (near : |value x - c.toInt| ≤ 2)
    (below : value x - c.toInt < -1) : takenOff t (x - Numeric.ofInt32 c) < 0 := by
  have short : Short (value x - c.toInt) :=
    short_sub_int (a := 0) hx (by simpa using large) (by decide) (near.trans_eq (by norm_num))
  have unrounded := (shifted_rounds hx c (near.trans (by norm_num))).2.eq_of_short short
  have floor : ⌊value (x - Numeric.ofInt32 c)⌋ < -1 := by
    rw [unrounded]
    exact Int.floor_lt.mpr (by push_cast; exact below)
  rw [takenOff]
  split <;> omega

omit usable in
theorem takenOff_of_low (low : ⌊value x⌋ < -2 ^ 31) (near : |value x - (cell t x).toInt| ≤ 2) :
    takenOff t (x - Numeric.ofInt32 (cell t x)) ≠ 0 := by
  have negative : value x < -2 ^ 31 := by exact_mod_cast Int.floor_lt.mp low
  have large : 1 ≤ |value x| := by
    rw [abs_of_neg (by linarith)]
    linarith
  by_cases far : value x - (cell t x).toInt < -1
  · exact (takenOff_of_below hx large near far).ne
  cases up : movedUp t x with
  | true =>
    have kept : (cell t x).toInt = -2 ^ 31 + 1 := by
      have := (cell_moves hx up).1
      omega
    refine absurd ?_ far
    rw [kept]
    push_cast
    linarith
  | false =>
    have kept : (cell t x).toInt = -2 ^ 31 := by
      have := (cell_stays hx up).1
      omega
    have least : -2 ^ 31 - 1 ≤ ⌊value x⌋ := by
      rw [Int.le_floor]
      rw [kept] at far
      push_cast at far ⊢
      linarith
    have next : (cell t x).toInt = ⌊value x⌋ + 1 := by omega
    have half : 2 ^ (-1 : ℤ) ≤ |value x| := le_trans (by norm_num) large
    obtain ⟨floor, snaps⟩ := next_of_large hx next width (t := t) half
    rw [takenOff, floor, snaps, ← movedUp_of_large hx next width half, up]
    decide

omit width usable in
theorem takenOff_of_high (high : 2 ^ 31 ≤ wholeCell t x)
    (near : |value x - (cell t x).toInt| ≤ 2) :
    takenOff t (x - Numeric.ofInt32 (cell t x)) ≠ 0 := by
  have low := Int.floor_le (value x)
  cases up : movedUp t x with
  | false =>
    obtain ⟨kept, whole⟩ := cell_stays hx up
    have floor : (2 ^ 31 : ℚ) ≤ ⌊value x⌋ := by exact_mod_cast whole ▸ high
    have one := (shifted_rounds hx (cell t x) (near.trans (by norm_num))).2.ge_of_ge
      (.of_int (n := 1) (by decide)) (by
        rw [show (cell t x).toInt = 2 ^ 31 - 1 by omega]
        push_cast
        linarith)
    have positive : 1 ≤ ⌊value (x - Numeric.ofInt32 (cell t x))⌋ := Int.le_floor.mpr one
    rw [takenOff]
    split <;> omega
  | true =>
    obtain ⟨kept, whole⟩ := cell_moves hx up
    rw [if_neg (by omega)] at kept
    have floor : (2 ^ 31 - 1 : ℚ) ≤ ⌊value x⌋ := by
      have : 2 ^ 31 - 1 ≤ ⌊value x⌋ := by omega
      exact_mod_cast this
    have most := (abs_le.mp near).2
    rw [kept] at most
    push_cast at most
    linarith

omit usable in
/-- A cell outside of 32 bits is replaced by one that the place does not lie in. -/
theorem takenOff_of_not_fits (unfit : ¬Fits t x)
    (near : |value x - (cell t x).toInt| ≤ 2) :
    takenOff t (x - Numeric.ofInt32 (cell t x)) ≠ 0 := by
  by_cases low : ⌊value x⌋ < -2 ^ 31
  · exact takenOff_of_low width hx low near
  · refine takenOff_of_high hx (not_lt.mp fun high => ?_) near
    exact unfit ⟨not_lt.mp low, high⟩

end TakenOff

end Fractional

end CrystalModel
