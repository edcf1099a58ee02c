import CrystalModel.Document.Basic
import CrystalModel.Geometry.Vector

/-! # Reading values out of documents

Small readers for plain values, lists and members of tables. A table may also be given as the
list of its members in their order. -/
namespace CrystalModel.Document

inductive Fault where
  | missing (key : String)
  | unknown (key : String)
  | unexpected
deriving DecidableEq, Repr

abbrev Reader (α : Type) := Document → Except Fault α

namespace Reader

def upTo (greatest : Nat) : Reader Nat
  | .integer n => if 0 ≤ n ∧ n ≤ greatest then .ok n.toNat else .error .unexpected
  | _ => .error .unexpected

def natural : Reader Nat := upTo (UInt64.size - 1)

def word : Reader UInt64 := fun d => (natural d).map UInt64.ofNat

def int32 : Reader Int32
  | .integer n =>
    if Int32.minValue.toInt ≤ n ∧ n ≤ Int32.maxValue.toInt then .ok (Int32.ofInt n)
    else .error .unexpected
  | _ => .error .unexpected

/-- Whole numbers of at most 64 bits stand for reals as well. -/
def real : Reader Float
  | .real x => .ok x
  | .integer n =>
    if Int64.minValue.toInt ≤ n ∧ n < UInt64.size then .ok (Float.ofInt n)
    else .error .unexpected
  | _ => .error .unexpected

def text : Reader String
  | .text s => .ok s
  | _ => .error .unexpected

def flag : Reader Bool
  | .flag b => .ok b
  | _ => .error .unexpected

/-- The word itself, or the only key of a table with nothing under it. -/
def word? : Document → Option String
  | .text s => some s
  | .table [(s, .table [])] => some s
  | .table [(s, .list [])] => some s
  | _ => none

def oneOf {α : Type} (words : List (String × α)) : Reader α := fun d =>
  match (word? d).bind (words.lookup ·) with
  | some a => .ok a
  | none => .error .unexpected

def list {α : Type} (item : Reader α) : Reader (List α)
  | .list items => items.mapM item
  | _ => .error .unexpected

/-- At least three values, of which the first three count. -/
def triple {α : Type} (item : Reader α) : Reader (Vec3 α)
  | .list (x :: y :: z :: _) => do return ⟨← item x, ← item y, ← item z⟩
  | _ => .error .unexpected

def point : Reader Point := triple real

end Reader

/-- The members of a table that has no keys besides `keys`. -/
def members (keys : List String) : Reader (List (String × Document))
  | .table entries =>
    match entries.find? (fun (key, _) => !keys.contains key) with
    | some (key, _) => .error (.unknown key)
    | none => .ok (entries.filter fun (_, value) => !(value matches .null))
  | .list items => .ok (keys.zip items)
  | _ => .error .unexpected

def member? {α : Type} (entries : List (String × Document)) (key : String) (read : Reader α) :
    Except Fault (Option α) :=
  match entries.lookup key with
  | some value => (read value).map some
  | none => .ok none

def member {α : Type} (entries : List (String × Document)) (key : String) (read : Reader α) :
    Except Fault α :=
  match entries.lookup key with
  | some value => read value
  | none => .error (.missing key)

def memberOr {α : Type} (entries : List (String × Document)) (key : String) (default : α)
    (read : Reader α) : Except Fault α :=
  match entries.lookup key with
  | some value => read value
  | none => .ok default

end CrystalModel.Document
