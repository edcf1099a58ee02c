import CrystalModel.Energy.Pair
import CrystalModel.Proofs.Energy.Table

/-! # Pair tables from both ends

Seen from its other end, an interaction assigns the same energies in the same order, with rows and
columns exchanged all along. So both tables fail together, and are transposes of each other where
they do not. A symmetric energy is moreover written to both of its cells in one go, so each table
stays its own transpose from entry to entry. -/
namespace CrystalModel

/-- The same fault, met with rows and columns exchanged. -/
def Fault.transposed : Fault → Fault
  | .conflictingEnergies known value row column => .conflictingEnergies known value column row
  | fault => fault

namespace EnergyTable

variable {width value : Float} {row column : Nat}

def transposed (t : EnergyTable) : EnergyTable where
  rowCount := t.columnCount
  columnCount := t.rowCount
  assigned := t.assigned.map fun x => (x.1.swap, x.2)

def turned (outcome : Except Fault EnergyTable) : Except Fault EnergyTable :=
  (outcome.map transposed).mapError Fault.transposed

def cell? (t : EnergyTable) (row column : Nat) : Option Float :=
  t.rows[row]?.bind (·[column]?)

theorem cell?_eq (t : EnergyTable) (row column : Nat) : t.cell? row column =
    if row < t.rowCount ∧ column < t.columnCount then some (t.energy row column) else none := by
  by_cases inRow : row < t.rowCount
  · by_cases inColumn : column < t.columnCount
    · simp [cell?, rows, inRow, inColumn]
    · simp [cell?, rows, inRow, inColumn]
  · simp [cell?, rows, inRow]

@[simp] theorem assigned?_transposed (t : EnergyTable) (row column : Nat) :
    t.transposed.assigned? row column = t.assigned? column row := by
  unfold assigned? transposed
  induction t.assigned with
  | nil => rfl
  | cons x rest ih =>
    obtain ⟨⟨first, second⟩, energy⟩ := x
    have same : ((row, column) == (second, first)) = ((column, row) == (first, second)) := by
      rw [Bool.eq_iff_iff, beq_iff_eq, beq_iff_eq, Prod.mk.injEq, Prod.mk.injEq, and_comm]
    rw [List.map_cons, List.lookup_cons, List.lookup_cons, ih, Prod.swap_prod_mk, same]

@[simp] theorem energy_transposed (t : EnergyTable) (row column : Nat) :
    t.transposed.energy row column = t.energy column row := by
  rw [energy, assigned?_transposed, energy]

@[simp] theorem cell?_transposed (t : EnergyTable) (row column : Nat) :
    t.transposed.cell? row column = t.cell? column row := by
  rw [cell?_eq, cell?_eq, energy_transposed]
  exact if_congr and_comm rfl rfl

theorem assign_transposed (t : EnergyTable) :
    t.transposed.assign width column row value = turned (t.assign width row column value) := by
  unfold assign
  rw [assigned?_transposed]
  cases t.assigned? row column with
  | none => rfl
  | some known =>
    simp only
    by_cases conflict : width < (known - value).abs
    · rw [if_pos conflict, if_pos conflict]
      rfl
    · rw [if_neg conflict, if_neg conflict]
      rfl

theorem foldlM_transposed {α : Type} {f g : EnergyTable → α → Except Fault EnergyTable}
    (step : ∀ t x, g t.transposed x = turned (f t x)) (xs : List α) (t : EnergyTable) :
    xs.foldlM g t.transposed = turned (xs.foldlM f t) := by
  induction xs generalizing t with
  | nil => rfl
  | cons x rest ih =>
    rw [List.foldlM_cons, List.foldlM_cons, step]
    cases f t x with
    | error fault => rfl
    | ok next => exact ih next

theorem turned_error_iff {outcome : Except Fault EnergyTable} :
    (∃ fault, turned outcome = .error fault) ↔ ∃ fault, outcome = .error fault := by
  cases outcome <;> simp [turned, Except.map, Except.mapError]

theorem turned_ok_iff {outcome : Except Fault EnergyTable} {t : EnergyTable} :
    turned outcome = .ok t ↔ ∃ t', outcome = .ok t' ∧ t'.transposed = t := by
  cases outcome <;> simp [turned, Except.map, Except.mapError]

/-- Both cells of two particles hold the same energy, or neither holds one. -/
structure Mirrored (t : EnergyTable) : Prop where
  square : t.rowCount = t.columnCount
  cells : ∀ row column, t.assigned? row column = t.assigned? column row

theorem mirrored_empty (count : Nat) : Mirrored (.empty count count) :=
  ⟨rfl, fun _ _ => rfl⟩

theorem Mirrored.both {t once twice : EnergyTable} (mirrored : t.Mirrored)
    (first : t.assign width row column value = .ok once)
    (second : once.assign width column row value = .ok twice) : twice.Mirrored := by
  refine ⟨?_, fun i j => ?_⟩
  · rw [assign_ok second, assign_ok first]
    exact mirrored.square
  · rw [assigned?_of_assign second, assigned?_of_assign first, assigned?_of_assign second,
      assigned?_of_assign first, mirrored.cells]
    by_cases here : i = row ∧ j = column
    · simp [here]
    · by_cases there : j = row ∧ i = column
      · simp [there]
      · rw [if_neg here, if_neg there, if_neg (mt And.symm here), if_neg (mt And.symm there)]

theorem Mirrored.cell? {t : EnergyTable} (mirrored : t.Mirrored) (row column : Nat) :
    t.cell? row column = t.cell? column row := by
  rw [cell?_eq, cell?_eq, energy, energy, mirrored.square, mirrored.cells]
  exact if_congr and_comm rfl rfl

end EnergyTable

namespace PairInteraction

open EnergyTable

variable {i : PairInteraction} {inverted : Bool} {count : Nat} {width : Float}

theorem cells_inverted (i : PairInteraction) (entry : PairEnergy) :
    i.cells true entry = (i.cells false entry).map Prod.swap := by
  unfold cells
  cases i.kind <;> rfl

theorem assignEntry_inverted (i : PairInteraction) (count : Nat) (width : Float) (t : EnergyTable)
    (entry : PairEnergy) : i.assignEntry true count width t.transposed entry =
      turned (i.assignEntry false count width t entry) := by
  unfold assignEntry
  by_cases known : entry.center < count ∧ entry.partner < count
  · rw [if_pos known, if_pos known, cells_inverted, List.foldlM_map]
    refine foldlM_transposed (fun t cell => ?_) _ t
    exact t.assign_transposed
  · rw [if_neg known, if_neg known]
    rfl

/-- The table from the other end has rows and columns exchanged, and so has its fault. -/
theorem table_inverted (i : PairInteraction) (count : Nat) (width : Float) :
    i.table true count width = turned (i.table false count width) :=
  foldlM_transposed (i.assignEntry_inverted count width) i.energies (.empty count count)

theorem mirrored_of_assignEntry (symmetric : i.kind = .symmetric) {t t' : EnergyTable}
    {entry : PairEnergy} (mirrored : t.Mirrored)
    (h : i.assignEntry inverted count width t entry = .ok t') : t'.Mirrored := by
  unfold assignEntry at h
  split at h
  · simp only [cells, symmetric, List.foldlM_cons, List.foldlM_nil, bind_ok_iff, pure_ok_iff] at h
    obtain ⟨once, first, twice, second, rfl⟩ := h
    exact mirrored.both first second
  · cases h

theorem mirrored_of_table (symmetric : i.kind = .symmetric) {t : EnergyTable}
    (h : i.table inverted count width = .ok t) : t.Mirrored := by
  refine foldlM_ok_induction (motive := fun _ t => t.Mirrored) h (mirrored_empty count) ?_
  intro _ _ _ _ _ _ before step
  exact mirrored_of_assignEntry symmetric before step

/-- Both ends of a pair see the same energies: their tables fail together and are transposes of each
other. Each table of a symmetric interaction is its own transpose. -/
theorem table_bothEnds (i : PairInteraction) (count : Nat) (width : Float) :
    ((∃ fault, i.table true count width = .error fault) ↔
      ∃ fault, i.table false count width = .error fault) ∧
    (∀ t back, i.table false count width = .ok t → i.table true count width = .ok back →
      ∀ row column, back.cell? row column = t.cell? column row) ∧
    (i.kind = .symmetric → ∀ inverted t, i.table inverted count width = .ok t →
      ∀ row column, t.cell? row column = t.cell? column row) := by
  refine ⟨?_, ?_, ?_⟩
  · rw [table_inverted]
    exact turned_error_iff
  · intro t back there here row column
    rw [table_inverted, turned_ok_iff] at here
    obtain ⟨t', same, rfl⟩ := here
    cases there.symm.trans same
    exact t.cell?_transposed row column
  · intro symmetric inverted t made
    exact (mirrored_of_table symmetric made).cell?

def polar : PairInteraction :=
  ⟨0, 0, 0, ⟨0.0, 0.0, 0.0⟩, ⟨1.0, 0.0, 0.0⟩, .asymmetric,
    [⟨1, 2, 0.25⟩, ⟨2, 1, 0.75⟩, ⟨1, 2, 0.25⟩], .active⟩

theorem polar_bothEnds :
    (∃ t back, polar.table false 3 1.0e-9 = .ok t ∧ polar.table true 3 1.0e-9 = .ok back ∧
      t.cell? 1 2 = some 0.25 ∧ t.cell? 2 1 = some 0.75 ∧
      back.cell? 2 1 = some 0.25 ∧ back.cell? 1 2 = some 0.75) ∧
    (∃ fault, { polar with kind := .symmetric }.table false 3 1.0e-9 = .error fault) ∧
    ∃ fault, { polar with kind := .symmetric }.table true 3 1.0e-9 = .error fault := by
  have found : ((polar.table false 3 1.0e-9).toOption.any fun t =>
        t.cell? 1 2 = some 0.25 ∧ t.cell? 2 1 = some 0.75) ∧
      ((polar.table true 3 1.0e-9).toOption.any fun back => back.rowCount = 3) ∧
      ({ polar with kind := .symmetric }.table false 3 1.0e-9).toOption = none := by
    decide +kernel
  obtain ⟨there, here, contradiction⟩ := found
  obtain ⟨t, made, entries⟩ := ok_of_any there
  obtain ⟨first, second⟩ := of_decide_eq_true entries
  obtain ⟨back, made', _⟩ := ok_of_any here
  obtain ⟨_, transposes, _⟩ := polar.table_bothEnds 3 1.0e-9
  obtain ⟨fails, _, _⟩ := { polar with kind := .symmetric }.table_bothEnds 3 1.0e-9
  have refused : ∃ fault,
      { polar with kind := .symmetric }.table false 3 1.0e-9 = .error fault := by
    cases outcome : { polar with kind := .symmetric }.table false 3 1.0e-9 with
    | error fault => exact ⟨fault, rfl⟩
    | ok t =>
      rw [outcome] at contradiction
      cases contradiction
  refine ⟨⟨t, back, made, made', first, second, ?_, ?_⟩, refused, fails.mpr refused⟩
  · rw [transposes t back made made', first]
  · rw [transposes t back made made', second]

end PairInteraction

end CrystalModel
