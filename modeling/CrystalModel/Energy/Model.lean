import CrystalModel.Build.Error
import CrystalModel.Rule.Basic

/-! # Energy models

One table per class of pair models and per class of group models. Every model of a class is
linked to the table of the class.

A cell of a table is assigned as often as the authored energies ask for it, as long as the values
agree within a tolerance; a cell that is never assigned holds zero. -/
namespace CrystalModel

/-- The energies assigned so far, the newest in front. -/
structure EnergyTable where
  rowCount : Nat
  columnCount : Nat
  assigned : List ((Nat × Nat) × Float)
deriving DecidableEq, Repr

namespace EnergyTable

def empty (rowCount columnCount : Nat) : EnergyTable := ⟨rowCount, columnCount, []⟩

def assigned? (t : EnergyTable) (row column : Nat) : Option Float :=
  t.assigned.lookup (row, column)

def energy (t : EnergyTable) (row column : Nat) : Float := (t.assigned? row column).getD 0.0

def rows (t : EnergyTable) : List (List Float) :=
  (List.range t.rowCount).map fun row => (List.range t.columnCount).map (t.energy row)

/-- Assigns an energy to a cell; one that is already there may differ by at most `width`. -/
def assign (width : Float) (row column : Nat) (value : Float) (t : EnergyTable) :
    Except Fault EnergyTable :=
  match t.assigned? row column with
  | none => .ok { t with assigned := ((row, column), value) :: t.assigned }
  | some known =>
    if width < (known - value).abs then .error (.conflictingEnergies known value row column)
    else .ok { t with assigned := ((row, column), value) :: t.assigned }

end EnergyTable

structure PairTable where
  modelId : Nat
  interaction : Nat
  kind : PairKind
  inverted : Bool
  table : EnergyTable
deriving DecidableEq, Repr

/-- Energies by the particle at the center and the particles at the partners. Row `i` belongs to
the `i`-th center, column `i` to the `i`-th occupation code; both are listed in ascending
order. -/
structure GroupTable where
  modelId : Nat
  interaction : Nat
  centers : List Nat
  codes : List Int64
  table : EnergyTable
deriving DecidableEq, Repr

namespace GroupTable

def energy? (t : GroupTable) (center : Nat) (code : Int64) : Option Float := do
  let row ← t.centers.idxOf? center
  let column ← t.codes.idxOf? code
  return t.table.energy row column

end GroupTable

/-- The tables in the order of their classes, and the table of every model. -/
structure Energetics where
  pairTables : List PairTable
  groupTables : List GroupTable
  pairLinks : List (Option Nat)
  groupLinks : List (Option Nat)
deriving DecidableEq, Repr

end CrystalModel
