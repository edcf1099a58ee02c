/-! # Reading decimals

Unsigned decimals made of digits and at most one point, rounded to the nearest double. -/
namespace CrystalModel.Numeric

def digitValue (c : Char) : Nat := c.toNat - '0'.toNat

def digitsValue (digits : List Char) : Nat :=
  digits.foldl (fun n c => 10 * n + digitValue c) 0

/-- The number `digits * 10 ^ exponent`, rounded once. Above `10 ^ 310` and below `10 ^ -345`
the powers of ten need not be formed. -/
def scaledDecimal (digits : Nat) (exponent : Int) : Float :=
  let magnitude := exponent + (Nat.toDigits 10 digits).length
  if digits = 0 ∨ magnitude < -345 then 0.0
  else if 310 < magnitude then 1.0 / 0.0
  else if exponent < 0 then Float.ofScientific digits true (-exponent).toNat
  else Float.ofScientific digits false exponent.toNat

/-- Digits with a point before, between or behind them. A lone point is no number. -/
def readDecimal (cs : List Char) : Option Float :=
  let whole := cs.takeWhile Char.isDigit
  let fraction := match cs.dropWhile Char.isDigit with
    | [] => some []
    | c :: rest => if c = '.' ∧ rest.all Char.isDigit then some rest else none
  match fraction with
  | none => none
  | some digits =>
    if whole.isEmpty ∧ digits.isEmpty then none
    else some (scaledDecimal (digitsValue (whole ++ digits)) (-(digits.length : Int)))

end CrystalModel.Numeric
