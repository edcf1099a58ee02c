/-! # Lists of numbers

The total of a list, and its elements in ascending order, each once. -/
namespace CrystalModel.Numeric

def total : List Nat → Nat
  | [] => 0
  | n :: rest => n + total rest

/-- Of equal neighbours keeps the first. -/
def dropRepeats {α : Type} [DecidableEq α] : List α → List α
  | a :: b :: rest => if a = b then dropRepeats (b :: rest) else a :: dropRepeats (b :: rest)
  | xs => xs

def ascending {α : Type} [DecidableEq α] [LE α] [DecidableLE α] (xs : List α) : List α :=
  dropRepeats (xs.mergeSort fun a b => decide (a ≤ b))

end CrystalModel.Numeric
