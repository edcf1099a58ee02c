import CrystalModel.Proofs.Energy.Transposition
import CrystalModel.Proofs.Numeric.Arithmetic

/-! # Energies that drift

A new energy is compared with the one that its cell holds, and then takes its place. So each energy
authored for a cell agrees with the one before it, and the last one stays. Over several steps the
value may drift away by more than the tolerance, and whether a list of energies is refused depends
on their order. -/
namespace CrystalModel

/-- Blocks of one value each form a chain in every order exactly when their values are related two
by two. -/
theorem chain_orders_iff {α β : Type} {R : β → β → Prop} (symm : ∀ {x y}, R x y → R y x)
    {count : α → Nat} {value : α → β} {xs : List α} :
    (∀ order : List α, order.Perm xs →
      (order.flatMap fun a => List.replicate (count a) (value a)).IsChain R) ↔
      (xs.flatMap fun a => List.replicate (count a) (value a)).Pairwise R := by
  constructor
  · intro chained
    have front {first : List α} (h : first.Sublist xs) :
        (first.flatMap fun a => List.replicate (count a) (value a)).IsChain R := by
      obtain ⟨rest, perm⟩ := h.exists_perm_append
      have joined := chained _ perm.symm
      rw [List.flatMap_append] at joined
      exact joined.left_of_append
    refine List.pairwise_flatMap.mpr ⟨fun a ha => ?_, ?_⟩
    · have block := front (List.singleton_sublist.mpr ha)
      rw [List.flatMap_singleton] at block
      refine List.pairwise_replicate.mpr ?_
      rcases hn : count a with _ | _ | n
      · exact Or.inl (Nat.zero_le _)
      · exact Or.inl (Nat.le_refl _)
      · rw [hn, List.replicate_succ, List.replicate_succ] at block
        exact Or.inr block.rel
    · refine List.pairwise_iff_forall_sublist.mpr fun {a b} h x hx y hy => ?_
      have blocks := front h
      rw [List.mem_replicate] at hx hy
      rw [List.flatMap_cons, List.flatMap_singleton, List.isChain_append] at blocks
      refine blocks.2.2 x ?_ y ?_
      · rw [List.getLast?_replicate, if_neg hx.1, hx.2]
        rfl
      · rw [List.head?_replicate, if_neg hy.1, hy.2]
        rfl
  · intro related order perm
    exact ((perm.flatMap_right _).pairwise_iff symm |>.mpr related).isChain

namespace EnergyTable

/-- The table does not tell the two energies apart: they differ by no more than the width. -/
def Agrees (width known value : Float) : Prop := ¬width < (known - value).abs

instance (width known value : Float) : Decidable (Agrees width known value) :=
  inferInstanceAs (Decidable ¬_)

theorem Agrees.symm {width a b : Float} (h : Agrees width a b) : Agrees width b a := by
  unfold Agrees
  rw [Double.abs_sub_comm]
  exact h

def write (width : Float) (t : EnergyTable) (x : (Nat × Nat) × Float) : Except Fault EnergyTable :=
  t.assign width x.1.1 x.1.2 x.2

def listed (writes : List ((Nat × Nat) × Float)) (cell : Nat × Nat) : List Float :=
  (writes.filter fun x => x.1 == cell).map (·.2)

variable {width : Float} {t t' : EnergyTable} {x : (Nat × Nat) × Float}
  {writes : List ((Nat × Nat) × Float)}

theorem write_ok_iff : t.write width x = .ok t' ↔
    (∀ known ∈ t.assigned? x.1.1 x.1.2, Agrees width known x.2) ∧
      t' = { t with assigned := x :: t.assigned } := by
  unfold write assign
  cases t.assigned? x.1.1 x.1.2 with
  | none => simp [eq_comm]
  | some known => by_cases apart : width < (known - x.2).abs <;> simp [Agrees, apart, eq_comm]

theorem listed_concat (writes : List ((Nat × Nat) × Float)) (cell : Nat × Nat) :
    listed (writes ++ [x]) cell = listed writes cell ++ if x.1 = cell then [x.2] else [] := by
  by_cases here : x.1 = cell <;> simp [listed, here]

theorem lookup_reverse (writes : List ((Nat × Nat) × Float)) (cell : Nat × Nat) :
    writes.reverse.lookup cell = (listed writes cell).getLast? := by
  induction writes using List.reverseRecOn with
  | nil => rfl
  | append_singleton writes x ih =>
    obtain ⟨key, energy⟩ := x
    rw [List.reverse_append, List.reverse_singleton, List.singleton_append, listed_concat,
      List.lookup_cons, ih]
    by_cases here : key = cell
    · simp [here]
    · have apart : (cell == key) = false := by
        rw [beq_eq_false_iff_ne]
        exact Ne.symm here
      simp [here, apart]

/-- A list of energies is accepted when each one agrees with the one listed before it with the same
cell, and then the table holds all of them, the newest in front. -/
theorem writes_ok_iff (rowCount columnCount : Nat) :
    writes.foldlM (write width) (.empty rowCount columnCount) = .ok t ↔
      (∀ cell, (listed writes cell).IsChain (Agrees width)) ∧
        t = ⟨rowCount, columnCount, writes.reverse⟩ := by
  induction writes using List.reverseRecOn generalizing t with
  | nil => simp [listed, empty, pure, Except.pure, eq_comm]
  | append_singleton writes x ih =>
    have chain (cell : Nat × Nat) : (listed (writes ++ [x]) cell).IsChain (Agrees width) ↔
        (listed writes cell).IsChain (Agrees width) ∧ (x.1 = cell →
          ∀ known ∈ (listed writes cell).getLast?, Agrees width known x.2) := by
      rw [listed_concat, List.isChain_append]
      by_cases here : x.1 = cell <;> simp [here]
    have step (t : EnergyTable) (ht : t = ⟨rowCount, columnCount, writes.reverse⟩) :
        t.assigned? x.1.1 x.1.2 = (listed writes x.1).getLast? := by
      rw [ht, assigned?, lookup_reverse]
    rw [List.foldlM_append, bind_ok_iff]
    simp only [ih, List.foldlM_cons, List.foldlM_nil, bind_ok_iff, pure_ok_iff, write_ok_iff, chain,
      forall_and, List.reverse_append, List.reverse_singleton, List.singleton_append]
    constructor
    · rintro ⟨before, ⟨chained, rfl⟩, _, ⟨agree, rfl⟩, rfl⟩
      rw [step _ rfl] at agree
      refine ⟨⟨chained, ?_⟩, rfl⟩
      rintro cell rfl
      exact agree
    · rintro ⟨⟨chained, agree⟩, rfl⟩
      refine ⟨_, ⟨chained, rfl⟩, _, ⟨?_, rfl⟩, rfl⟩
      rw [step _ rfl]
      exact agree x.1 rfl

end EnergyTable

namespace PairInteraction

open EnergyTable

variable {i : PairInteraction} {inverted : Bool} {count : Nat} {width : Float} {t : EnergyTable}

def authored (i : PairInteraction) (inverted : Bool) (cell : Nat × Nat) : List Float :=
  i.energies.flatMap fun entry => List.replicate ((i.cells inverted entry).count cell) entry.energy

def writes (i : PairInteraction) (inverted : Bool) : List ((Nat × Nat) × Float) :=
  i.energies.flatMap fun entry => (i.cells inverted entry).map fun cell => (cell, entry.energy)

theorem listed_writes (i : PairInteraction) (inverted : Bool) (cell : Nat × Nat) :
    listed (i.writes inverted) cell = i.authored inverted cell := by
  rw [listed, writes, List.filter_flatMap, List.map_flatMap, authored]
  refine List.flatMap_congr fun entry _ => ?_
  rw [List.filter_map, List.map_map, List.count_eq_length_filter]
  exact List.map_const'

/-- A table is made when all particles are known and each energy agrees with the one authored before
it for the same cell. -/
theorem table_ok_iff : i.table inverted count width = .ok t ↔
    (∀ entry ∈ i.energies, entry.center < count ∧ entry.partner < count) ∧
      (∀ cell, (i.authored inverted cell).IsChain (Agrees width)) ∧
      t = ⟨count, count, (i.writes inverted).reverse⟩ := by
  have step (t : EnergyTable) (entry : PairEnergy) (t' : EnergyTable) :
      i.assignEntry inverted count width t entry = .ok t' ↔
        (entry.center < count ∧ entry.partner < count) ∧
        ((i.cells inverted entry).map fun cell => (cell, entry.energy)).foldlM (write width) t =
          .ok t' := by
    unfold assignEntry
    by_cases known : entry.center < count ∧ entry.partner < count
    · rw [if_pos known, and_iff_right known, List.foldlM_map]
      exact Iff.rfl
    · rw [if_neg known]
      exact iff_of_false nofun fun h => known h.1
  simp only [← listed_writes, ← writes_ok_iff]
  rw [table, foldlM_guarded step, writes, foldlM_flatMap]

theorem mem_authored {cell : Nat × Nat} {energy : Float} : energy ∈ i.authored inverted cell ↔
    ∃ entry ∈ i.energies, cell ∈ i.cells inverted entry ∧ entry.energy = energy := by
  simp only [authored, List.mem_flatMap, List.mem_replicate, ne_eq, List.count_eq_zero, not_not,
    eq_comm (a := energy)]

theorem energy_of_table (made : i.table inverted count width = .ok t) (row column : Nat) :
    t.energy row column = (i.authored inverted (row, column)).getLast?.getD 0.0 := by
  obtain ⟨_, _, rfl⟩ := table_ok_iff.mp made
  rw [EnergyTable.energy, assigned?, lookup_reverse, listed_writes]

/-- The energies of an interaction are accepted when each agrees with the one authored before it for
the same cell, and then every cell holds the last one. So the authored energies agree with their
cells exactly when they agree with the last ones, and they are accepted in every order exactly when
those of each cell agree two by two. -/
theorem energies_kept_iff (i : PairInteraction) (inverted : Bool) (count : Nat) (width : Float) :
    ((∃ t, i.table inverted count width = .ok t) ↔
      (∀ entry ∈ i.energies, entry.center < count ∧ entry.partner < count) ∧
      ∀ cell, (i.authored inverted cell).IsChain (Agrees width)) ∧
    (∀ t, i.table inverted count width = .ok t →
      (∀ row column, t.energy row column = (i.authored inverted (row, column)).getLast?.getD 0.0) ∧
      ((∀ entry ∈ i.energies, ∀ cell ∈ i.cells inverted entry,
          Agrees width (t.energy cell.1 cell.2) entry.energy) ↔
        ∀ cell, ∀ last ∈ (i.authored inverted cell).getLast?,
          ∀ energy ∈ i.authored inverted cell, Agrees width last energy)) ∧
    ((∀ order, order.Perm i.energies →
        ∃ t, { i with energies := order }.table inverted count width = .ok t) ↔
      (∀ entry ∈ i.energies, entry.center < count ∧ entry.partner < count) ∧
      ∀ cell, (i.authored inverted cell).Pairwise (Agrees width)) := by
  have accepted (energies : List PairEnergy) :
      (∃ t, { i with energies }.table inverted count width = .ok t) ↔
        (∀ entry ∈ energies, entry.center < count ∧ entry.partner < count) ∧
        ∀ cell, ({ i with energies }.authored inverted cell).IsChain (Agrees width) := by
    simp only [table_ok_iff, exists_and_left, exists_eq, and_true]
  refine ⟨accepted i.energies, fun t made => ?_, ⟨fun orders => ⟨?_, fun cell => ?_⟩, ?_⟩⟩
  · have held := energy_of_table made
    refine ⟨held, ⟨?_, ?_⟩⟩
    · intro kept cell last hlast energy among
      obtain ⟨entry, hentry, hcell, rfl⟩ := mem_authored.mp among
      have agrees := kept entry hentry cell hcell
      rw [held, hlast, Option.getD_some] at agrees
      exact agrees
    · intro agree entry hentry cell hcell
      have among := mem_authored.mpr ⟨entry, hentry, hcell, rfl⟩
      have last := List.getLast?_eq_some_getLast (List.ne_nil_of_mem among)
      rw [held, last, Option.getD_some]
      exact agree cell _ last _ among
  · exact ((accepted i.energies).mp (orders i.energies (.refl _))).1
  · refine (chain_orders_iff Agrees.symm).mp fun order perm => ?_
    exact ((accepted order).mp (orders order perm)).2 cell
  · rintro ⟨known, related⟩ order perm
    refine (accepted order).mpr ⟨fun entry hentry => known entry (perm.mem_iff.mp hentry), ?_⟩
    intro cell
    exact (chain_orders_iff Agrees.symm).mpr (related cell) order perm

def drifting : PairInteraction :=
  ⟨0, 0, 0, ⟨0.0, 0.0, 0.0⟩, ⟨1.0, 0.0, 0.0⟩, .asymmetric,
    [⟨1, 2, 0.25⟩, ⟨1, 2, 0.5⟩, ⟨1, 2, 0.75⟩], .active⟩

theorem drifting_kept : ∃ t, drifting.table false 3 0.25 = .ok t ∧ t.energy 1 2 = 0.75 ∧
    ¬Agrees 0.25 0.75 0.25 ∧
    (¬∀ entry ∈ drifting.energies, ∀ cell ∈ drifting.cells false entry,
      Agrees 0.25 (t.energy cell.1 cell.2) entry.energy) ∧
    ¬∀ order, order.Perm drifting.energies →
      ∃ t', { drifting with energies := order }.table false 3 0.25 = .ok t' := by
  have found : (drifting.table false 3 0.25).toOption.any fun t => t.energy 1 2 = 0.75 := by
    decide +kernel
  obtain ⟨t, made, energy⟩ := ok_of_any found
  have apart : ¬Agrees 0.25 0.75 0.25 := by decide +kernel
  obtain ⟨_, filled, orders⟩ := drifting.energies_kept_iff false 3 0.25
  obtain ⟨_, kept⟩ := filled t made
  refine ⟨t, made, of_decide_eq_true energy, apart, fun every => ?_, fun both => ?_⟩
  · exact apart (kept.mp every (1, 2) 0.75 rfl 0.25 (by exact List.mem_cons_self))
  · have steps : [(0.25 : Float), 0.75].Sublist [0.25, 0.5, 0.75] := by
      exact .cons_cons _ (.cons _ (.refl _))
    have related := (orders.mp both).2 (1, 2)
    exact apart (List.pairwise_iff_forall_sublist.mp related steps).symm

end PairInteraction

end CrystalModel
