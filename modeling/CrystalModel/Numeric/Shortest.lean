/-! # The fewest digits that read back

A double stands for the interval of reals that round to it. Its shortest decimal is the
coarsest power-of-ten grid with a point in that interval, and of the points that lie next to
the value on this grid the nearer one. All arithmetic is exact. -/
namespace CrystalModel.Numeric

structure Decimal where
  digits : Nat
  exponent : Int
deriving DecidableEq, Repr

structure RoundingInterval where
  low : Nat
  value : Nat
  high : Nat
  unit : Nat
  closed : Bool
deriving DecidableEq, Repr

/-- The interval of `m * 2 ^ e`. Below a power of two the next double is half as far away,
unless the exponent is the least one. Ends round to the even significand. -/
def RoundingInterval.of (m : Nat) (e : Int) : RoundingInterval :=
  let gap := if m = Nat.pow 2 52 ∧ e ≠ -1074 then 1 else 2
  let closed := m % 2 = 0
  if 2 ≤ e then
    let scale := Nat.pow 2 (e - 2).toNat
    ⟨(4 * m - gap) * scale, 4 * m * scale, (4 * m + 2) * scale, 1, closed⟩
  else ⟨4 * m - gap, 4 * m, 4 * m + 2, Nat.pow 2 (2 - e).toNat, closed⟩

def RoundingInterval.measuredIn (i : RoundingInterval) (k : Int) : RoundingInterval :=
  if 0 ≤ k then { i with unit := i.unit * Nat.pow 10 k.toNat }
  else
    let scale := Nat.pow 10 (-k).toNat
    { i with low := i.low * scale, value := i.value * scale, high := i.high * scale }

def RoundingInterval.Holds (i : RoundingInterval) (n : Nat) : Prop :=
  if i.closed then i.low ≤ n * i.unit ∧ n * i.unit ≤ i.high
  else i.low < n * i.unit ∧ n * i.unit < i.high

instance (i : RoundingInterval) (n : Nat) : Decidable (i.Holds n) :=
  inferInstanceAs (Decidable (ite _ _ _))

/-- The whole number of steps in the interval that is nearest to the value; of two equally
near ones the greater. -/
def RoundingInterval.point? (i : RoundingInterval) : Option Nat :=
  let below := i.value / i.unit
  let above := below + 1
  if i.Holds below then
    if i.Holds above ∧ above * i.unit - i.value ≤ i.value - below * i.unit then some above
    else some below
  else if i.Holds above then some above
  else none

/-- Looks at ever finer grids, `steps` of them at most. -/
def RoundingInterval.coarsest (i : RoundingInterval) : Nat → Int → Decimal
  | 0, k => ⟨(i.measuredIn k).value / (i.measuredIn k).unit, k⟩
  | steps + 1, k =>
    match (i.measuredIn k).point? with
    | some n => ⟨n, k⟩
    | none => i.coarsest steps (k - 1)

def digitCount (n : Nat) : Nat := (Nat.toDigits 10 n).length

def RoundingInterval.magnitude (i : RoundingInterval) : Int :=
  if i.unit ≤ i.value then (digitCount (i.value / i.unit) : Int) - 1
  else -(digitCount (i.unit / i.value) : Int)

def Decimal.trimmed (d : Decimal) : Decimal :=
  if h : d.digits ≠ 0 ∧ d.digits % 10 = 0 then
    Decimal.trimmed ⟨d.digits / 10, d.exponent + 1⟩
  else d
termination_by d.digits
decreasing_by exact Nat.div_lt_self (Nat.pos_of_ne_zero h.1) (by decide)

/-- Seventeen digits tell all doubles apart. -/
def shortest (m : Nat) (e : Int) : Decimal :=
  let i := RoundingInterval.of m e
  (i.coarsest 17 i.magnitude).trimmed

end CrystalModel.Numeric
