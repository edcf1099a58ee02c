import CrystalModel.Numeric.Shortest

/-! # Number texts

How doubles are written in operation literals, messages and answers: always with the fewest
digits that read back, laid out in one of three ways. -/
namespace CrystalModel.Numeric

/-- A layout decides on a leading plus sign, on the fraction `.0` of whole numbers, and on the
places of the decimal point for which no exponent is written. -/
structure Layout where
  plusSign : Bool
  wholeFraction : Bool
  positional : Option (Int × Int)
deriving DecidableEq, Repr

def Layout.plain : Layout := ⟨false, false, none⟩

def Layout.signed : Layout := ⟨true, false, none⟩

/-- Always a fraction or an exponent; the exponent from `1e16` on and below `1e-4`. -/
def Layout.pointed : Layout := ⟨false, true, some (-3, 16)⟩

def zeros (n : Nat) : String := String.ofList (List.replicate n '0')

def positionalText (digits : List Char) (point : Int) (wholeFraction : Bool) : String :=
  if point ≤ 0 then "0." ++ zeros (-point).toNat ++ String.ofList digits
  else if digits.length ≤ point.toNat then
    String.ofList digits ++ zeros (point.toNat - digits.length) ++
      if wholeFraction then ".0" else ""
  else String.ofList (digits.take point.toNat) ++ "." ++ String.ofList (digits.drop point.toNat)

def exponentText (digits : List Char) (point : Int) : String :=
  String.ofList (digits.take 1) ++
    (if digits.length ≤ 1 then "" else "." ++ String.ofList (digits.drop 1)) ++
    "e" ++ toString (point - 1)

def Decimal.text (d : Decimal) (layout : Layout) : String :=
  let digits := Nat.toDigits 10 d.digits
  let point := digits.length + d.exponent
  match layout.positional with
  | none => positionalText digits point layout.wholeFraction
  | some (least, greatest) =>
    if least ≤ point ∧ point ≤ greatest then positionalText digits point layout.wholeFraction
    else exponentText digits point

def signText (layout : Layout) : Float.Model.UnpackedFloat.Sign → String
  | .negative => "-"
  | .positive => if layout.plusSign then "+" else ""

/-- NaN has no sign. -/
def text (layout : Layout) (x : Float) : String :=
  match x.toModel.unpack with
  | .notANumber => "NaN"
  | .infinity sign => signText layout sign ++ "inf"
  | .zero sign => signText layout sign ++ if layout.wholeFraction then "0.0" else "0"
  | .finite sign m e _ => signText layout sign ++ (shortest m e).text layout

def plain (x : Float) : String := text .plain x

def signed (x : Float) : String := text .signed x

def pointed (x : Float) : String := text .pointed x

end CrystalModel.Numeric
