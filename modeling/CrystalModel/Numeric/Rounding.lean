/-! # Whole parts of doubles

Rounding to whole numbers and the passage to 32-bit integers, read off the sign, significand
and exponent of a double. Infinities and NaN round to themselves. -/
namespace CrystalModel.Numeric

def floor (x : Float) : Float :=
  match x.toModel.unpack with
  | .finite sign m (.negSucc k) _ =>
    let unit := Nat.pow 2 (k + 1)
    match sign with
    | .positive => Float.ofNat (m / unit)
    | .negative => -Float.ofNat ((m + unit - 1) / unit)
  | _ => x

/-- The nearest whole number; a half goes away from zero, and the sign of a zero is kept. -/
def nearest (x : Float) : Float :=
  match x.toModel.unpack with
  | .finite sign m (.negSucc k) _ =>
    let unit := Nat.pow 2 (k + 1)
    let n := Float.ofNat ((2 * m + unit) / (2 * unit))
    match sign with
    | .positive => n
    | .negative => -n
  | _ => x

/-- Truncates toward zero, stops at the ends of the range, and sends NaN to zero. -/
def toInt32 (x : Float) : Int32 := x.toModel.toInt32

def ofInt32 (n : Int32) : Float := Float.ofInt n.toInt

/-- The greater of two doubles; a NaN gives way to the other value. -/
def greater (x y : Float) : Float :=
  if x.isNaN then y else if y.isNaN then x else if x < y then y else x

end CrystalModel.Numeric
