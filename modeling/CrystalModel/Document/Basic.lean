/-! # Documents

Trees of tables, lists and plain values: the form in which reference data is written down and
results are shown. Tables keep their entries in the order they were written in. -/
namespace CrystalModel

inductive Document where
  | null
  | flag (value : Bool)
  | integer (value : Int)
  | real (value : Float)
  | text (value : String)
  | list (items : List Document)
  | table (entries : List (String × Document))
  /-- Something well formed that has no value here, such as a date. -/
  | unreadable
deriving Repr

namespace Document

def entry? (entries : List (String × Document)) (key : String) : Option Document :=
  entries.lookup key

end Document

end CrystalModel
