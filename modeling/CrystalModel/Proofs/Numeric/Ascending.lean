import CrystalModel.Numeric.Lists

/-! # Ascending lists

Sorting brings equal elements next to each other, so dropping repeated neighbours leaves every
element once. -/
namespace CrystalModel.Numeric

theorem mergeSort_pairwise {α : Type} [LE α] [DecidableLE α] [Std.IsLinearOrder α]
    (xs : List α) :
    (xs.mergeSort fun a b => decide (a ≤ b)).Pairwise (· ≤ ·) := by
  have sorted : (xs.mergeSort fun a b => decide (a ≤ b)).Pairwise
      fun a b => decide (a ≤ b) = true :=
    List.pairwise_mergeSort (fun a b c ab bc => by
        simp only [decide_eq_true_eq] at ab bc ⊢
        exact Std.le_trans ab bc)
      (fun a b => by simpa using Std.le_total (a := a) (b := b)) xs
  exact sorted.imp of_decide_eq_true

variable {α : Type} [DecidableEq α]

@[simp] theorem mem_dropRepeats {xs : List α} {x : α} : x ∈ dropRepeats xs ↔ x ∈ xs := by
  fun_induction dropRepeats xs with
  | case1 b rest ih => simp [ih]
  | case2 a b rest apart ih => rw [List.mem_cons, ih, List.mem_cons (a := x) (b := a)]
  | case3 => rfl

@[simp] theorem mem_ascending [LE α] [DecidableLE α] {xs : List α} {x : α} :
    x ∈ ascending xs ↔ x ∈ xs := by
  rw [ascending, mem_dropRepeats, List.mem_mergeSort]

variable [LE α] [LT α] [Std.LawfulOrderLT α]

theorem dropRepeats_of_pairwise {xs : List α} (ascends : xs.Pairwise (· < ·)) :
    dropRepeats xs = xs := by
  fun_induction dropRepeats xs with
  | case1 b rest ih =>
    exact absurd (List.rel_of_pairwise_cons ascends List.mem_cons_self) Std.lt_irrefl
  | case2 a b rest apart ih => rw [ih ascends.tail]
  | case3 => rfl

variable [Std.IsLinearOrder α]

theorem dropRepeats_pairwise {xs : List α} (sorted : xs.Pairwise (· ≤ ·)) :
    (dropRepeats xs).Pairwise (· < ·) := by
  fun_induction dropRepeats xs with
  | case1 b rest ih => exact ih sorted.tail
  | case2 a b rest apart ih =>
    obtain ⟨below, sorted⟩ := List.pairwise_cons.mp sorted
    refine List.pairwise_cons.mpr ⟨fun y hy => ?_, ih sorted⟩
    have among := mem_dropRepeats.mp hy
    refine Std.lt_iff_le_and_not_ge.mpr ⟨below y among, fun back => apart ?_⟩
    have between : b ≤ y := by
      rcases List.mem_cons.mp among with rfl | later
      · exact Std.le_refl _
      · exact (List.pairwise_cons.mp sorted).1 y later
    exact Std.le_antisymm (below b List.mem_cons_self) (Std.le_trans between back)
  | case3 xs short =>
    match xs, short with
    | [], _ => exact .nil
    | [x], _ => exact List.pairwise_singleton _ _
    | a :: b :: rest, short => exact absurd rfl (short a b rest)

theorem ascending_pairwise [DecidableLE α] (xs : List α) : (ascending xs).Pairwise (· < ·) :=
  dropRepeats_pairwise (mergeSort_pairwise xs)

theorem ascending_of_perm [DecidableLE α] {xs ys : List α} (same : xs.Perm ys)
    (ascends : ys.Pairwise (· < ·)) : ascending xs = ys := by
  have sorted : (xs.mergeSort fun a b => decide (a ≤ b)) = ys :=
    List.Perm.eq_of_pairwise (fun _ _ _ _ => Std.le_antisymm) (mergeSort_pairwise xs)
      (ascends.imp Std.le_of_lt) ((List.mergeSort_perm xs _).trans same)
  rw [ascending, sorted, dropRepeats_of_pairwise ascends]

end CrystalModel.Numeric
