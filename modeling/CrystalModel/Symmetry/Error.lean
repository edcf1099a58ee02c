import CrystalModel.Numeric.Notation

/-! # Faults of literals and groups -/
namespace CrystalModel

inductive LiteralFault where
  | componentCount (found : Nat)
  | emptyComponent
  | unexpected (c : Char)
  | danglingSign
  | invalidNumber (digits : String)
  | invalidDenominator (digits : String)
  | divisionByZero
deriving DecidableEq, Repr

def LiteralFault.message : LiteralFault → String
  | .componentCount found => s!"expected 3 components, found {found}"
  | .emptyComponent => "empty component"
  | .unexpected c => s!"unexpected character \x27{c}\x27"
  | .danglingSign => "dangling sign"
  | .invalidNumber digits => s!"invalid number \x27{digits}\x27"
  | .invalidDenominator digits => s!"invalid denominator \x27{digits}\x27"
  | .divisionByZero => "division by zero"

inductive SymmetryError where
  | invalidLiteral (literal : String) (fault : LiteralFault)
  | emptyGroup (group : String)
  | missingIdentity (group : String)
  | invalidRotation (literal : String) (determinant : Float)
deriving DecidableEq, Repr

def SymmetryError.message : SymmetryError → String
  | .invalidLiteral literal fault =>
    s!"Invalid symmetry operation literal \x27{literal}\x27: " ++ fault.message
  | .emptyGroup group => s!"Space group \x27{group}\x27 defines no operations"
  | .missingIdentity group =>
    s!"Space group \x27{group}\x27 does not contain the identity operation"
  | .invalidRotation literal determinant =>
    s!"Operation \x27{literal}\x27 has rotation determinant " ++
      Numeric.plain determinant ++ ", expected +1 or -1"

end CrystalModel
