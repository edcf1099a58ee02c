import CrystalModel.Proofs.Fallible
import CrystalModel.Simulation.Index
import CrystalModel.Transition.Build
import Mathlib.Data.Nat.Bitwise

/-! # Masks and rows of the jump index

A mask is the set of its bits. Below the particle limit the shifts that write and read a bit do
not wrap, so masks and rows say of every particle exactly what they were made for. -/
namespace CrystalModel

theorem mark_toNat {k : Nat} (hk : k < particleLimit) :
    (1 <<< UInt64.ofNat k : UInt64).toNat = 2 ^ k := by
  have inside : k < 64 := hk
  have fits : 2 ^ k < 2 ^ 64 := Nat.pow_lt_pow_right (by decide) inside
  rw [UInt64.toNat_shiftLeft, UInt64.toNat_ofNat_of_lt' (Nat.lt_trans inside (by decide)),
    Nat.mod_eq_of_lt inside]
  simpa [Nat.shiftLeft_eq] using fits

theorem testBit_mark (mask : UInt64) {j k : Nat} (hj : j < particleLimit) :
    (mask ||| (1 <<< UInt64.ofNat j)).toNat.testBit k =
      (mask.toNat.testBit k || decide (j = k)) := by
  rw [UInt64.toNat_or, mark_toNat hj, Nat.testBit_or, Nat.testBit_two_pow]

theorem and_mark_ne_zero (mask : UInt64) {k : Nat} (hk : k < particleLimit) :
    (mask &&& (1 <<< UInt64.ofNat k) != 0) = mask.toNat.testBit k := by
  have zero : (mask &&& (1 <<< UInt64.ofNat k) = 0) ↔ mask.toNat.testBit k = false := by
    rw [← UInt64.toNat_inj, UInt64.toNat_and, mark_toNat hk, Nat.and_two_pow]
    cases mask.toNat.testBit k <;> simp
  cases bit : mask.toNat.testBit k with
  | false => simp [zero.mpr bit]
  | true =>
    rw [bne_iff_ne, ne_eq, zero, bit]
    decide

theorem testBit_foldl {α : Type} (f : UInt64 → α → UInt64) (marks : α → Prop) {k : Nat}
    {xs : List α} (step : ∀ x ∈ xs, ∀ mask, (f mask x).toNat.testBit k ↔
      mask.toNat.testBit k ∨ marks x) :
    (xs.foldl f 0).toNat.testBit k ↔ ∃ x ∈ xs, marks x := by
  suffices ∀ mask : UInt64, (xs.foldl f mask).toNat.testBit k ↔
      mask.toNat.testBit k ∨ ∃ x ∈ xs, marks x by
    simpa using this 0
  induction xs with
  | nil => simp
  | cons x rest ih =>
    intro mask
    rw [List.foldl_cons, ih fun y hy => step y (List.mem_cons_of_mem x hy),
      step x List.mem_cons_self]
    simp [or_assoc]

theorem mobileMask_testBit {rules : List Rule}
    (bytes : ∀ rule ∈ rules, ∀ b ∈ rule.start, b.toNat < particleLimit) {k : Nat}
    (void : k ≠ voidIndex) : (mobileMask rules).toNat.testBit k ↔
      ∃ rule ∈ rules, ∃ b, rule.start.head? = some b ∧ b.toNat = k := by
  refine testBit_foldl _ (fun rule : Rule => ∃ b, rule.start.head? = some b ∧ b.toNat = k) ?_
  intro rule hr mask
  cases first : rule.start.head? with
  | none => simp
  | some b =>
    have small := bytes rule hr b (List.mem_of_head? first)
    simp only [Option.some.injEq, exists_eq_left']
    by_cases isVoid : b = voidByte
    · have zero : b.toNat ≠ k := by
        rw [isVoid]
        exact Ne.symm void
      rw [if_pos isVoid]
      exact ⟨Or.inl, fun h => h.resolve_right zero⟩
    · rw [if_neg isVoid, testBit_mark mask small, Bool.or_eq_true, decide_eq_true_iff]

theorem canStart_iff {mask : UInt64} {k : Nat} (hk : k < particleLimit) :
    canStart mask k ↔ k ≠ voidIndex ∧ mask.toNat.testBit k := by
  rw [canStart, and_mark_ne_zero mask hk, Bool.and_eq_true, bne_iff_ne]

namespace JumpIndex

/-! ## Lists -/

/-- The ids of the entries at a position that a particle can start, in order. -/
def opened (entries : List Entry) (position particle : Nat) : List Nat :=
  (entries.filter fun e => e.position == position && canStart e.mask particle).map (·.id)

variable {α : Type} {table : List (List α)} {lists : List (List (List Int32))}
  {entries : List Entry} {p k p' k' : Nat} {ids ids' : List Int32}

theorem mem_opened {id : Nat} : id ∈ opened entries p k ↔
    ∃ entry ∈ entries, entry.position = p ∧ canStart entry.mask k ∧ entry.id = id := by
  simp [opened, and_assoc]

theorem opened_length_le (p k : Nat) : (opened entries p k).length ≤ entries.length := by
  rw [opened, List.length_map]
  exact List.length_filter_le _ _

theorem cell?_eq_some {a : α} :
    cell? table p k = some a ↔ ∃ row, table[p]? = some row ∧ row[k]? = some a :=
  Option.bind_eq_some_iff

theorem cell?_replicate (rows columns : Nat) (a : α) :
    cell? (List.replicate rows (List.replicate columns a)) p k =
      if p < rows ∧ k < columns then some a else none := by
  by_cases hp : p < rows <;> by_cases hk : k < columns <;> simp [cell?, hp, hk]

theorem cell?_modify_set (table : List (List α)) (a : α) :
    cell? (table.modify p (·.set k a)) p' k' =
      (cell? table p' k').map fun b => if p = p' ∧ k = k' then a else b := by
  rw [cell?, cell?, List.getElem?_modify]
  cases table[p']? with
  | none => rfl
  | some row =>
    by_cases here : p = p'
    · by_cases same : k = k'
      · subst here same
        by_cases inside : k < row.length <;> simp [inside]
      · simp [here, same]
    · simp [here]

theorem cell?_enter (lists : List (List (List Int32))) (e : Entry) :
    cell? (enter lists e) p k =
      (cell? lists p k).map (· ++ (opened [e] p k).map Int32.ofNat) := by
  rw [cell?, cell?, enter, List.getElem?_modify]
  cases lists[p]? with
  | none => rfl
  | some row =>
    by_cases here : e.position = p
    · by_cases can : canStart e.mask k
      · simp [opened, here, can, List.getElem?_mapIdx]
      · simp [opened, here, can, List.getElem?_mapIdx]
    · simp [opened, here]

theorem cell?_foldl_enter (entries : List Entry) (lists : List (List (List Int32))) :
    cell? (entries.foldl enter lists) p k =
      (cell? lists p k).map (· ++ (opened entries p k).map Int32.ofNat) := by
  induction entries generalizing lists with
  | nil => simp [opened]
  | cons e rest ih =>
    have behind : opened (e :: rest) p k = opened [e] p k ++ opened rest p k := by
      rw [opened, opened, opened, ← List.map_append, ← List.filter_append, List.singleton_append]
    rw [List.foldl_cons, ih, cell?_enter, behind, Option.map_map]
    simp [Function.comp_def]

theorem cell?_listsOf (particleCount positionTotal : Nat) (entries : List Entry) :
    cell? (listsOf particleCount positionTotal entries) p k = some ids ↔
      (p < positionTotal ∧ k < particleCount) ∧ (opened entries p k).map Int32.ofNat = ids := by
  rw [listsOf, cell?_foldl_enter, cell?_replicate]
  by_cases inside : p < positionTotal ∧ k < particleCount <;> simp [inside]

theorem length_le_widthOf (h : cell? lists p k = some ids) : ids.length ≤ widthOf lists := by
  obtain ⟨row, hrow, hids⟩ := cell?_eq_some.mp h
  have among : ids ∈ lists.flatten :=
    List.mem_flatten.mpr ⟨row, List.mem_of_getElem? hrow, List.mem_of_getElem? hids⟩
  have grows : ∀ (lists : List (List Int32)) (width : Nat),
      width ≤ lists.foldl (fun width ids => max width ids.length) width := by
    intro lists
    induction lists with
    | nil => exact fun _ => Nat.le_refl _
    | cons first rest ih => exact fun width => Nat.le_trans (Nat.le_max_left _ _) (ih _)
  suffices ∀ (lists : List (List Int32)) (width : Nat), ids ∈ lists →
      ids.length ≤ lists.foldl (fun width ids => max width ids.length) width from
    this _ 1 among
  intro lists
  induction lists with
  | nil => simp
  | cons first rest ih =>
    intro width h
    rcases List.mem_cons.mp h with rfl | h
    · exact Nat.le_trans (Nat.le_max_right width _) (grows rest _)
    · exact ih _ h

theorem mem_cells : (p, k, ids) ∈ cells lists ↔ cell? lists p k = some ids := by
  rw [cell?_eq_some]
  simp only [cells, List.mem_flatMap, List.mem_map, Prod.exists, List.mem_zipIdx_iff_getElem?,
    Prod.mk.injEq]
  constructor
  · rintro ⟨row, _, hrow, _, _, hids, rfl, rfl, rfl⟩
    exact ⟨row, hrow, hids⟩
  · rintro ⟨row, hrow, hids⟩
    exact ⟨row, p, hrow, ids, k, hids, rfl, rfl, rfl⟩

theorem cells_apart (lists : List (List (List Int32))) :
    (cells lists).Pairwise fun a b => (a.1, a.2.1) ≠ (b.1, b.2.1) := by
  rw [cells, List.pairwise_flatMap]
  constructor
  · rintro ⟨row, p⟩ _
    rw [List.pairwise_map]
    refine (zipIdx_ascending row).imp fun less same => ?_
    exact Nat.ne_of_lt less (Prod.mk.inj same).2
  · refine (zipIdx_ascending lists).imp fun less a ha b hb same => ?_
    obtain ⟨_, _, rfl⟩ := List.mem_map.mp ha
    obtain ⟨_, _, rfl⟩ := List.mem_map.mp hb
    exact Nat.ne_of_lt less (Prod.mk.inj same).1

/-! ## The buffer -/

def padded (width : Nat) (ids : List Int32) : List Int32 :=
  ids ++ List.replicate (width - ids.length) (-1)

section Buffer

variable {buffer : List Int32} {place width : Nat}

theorem getElem?_overwrite (fits : place + ids.length ≤ buffer.length) (i : Nat) :
    (overwrite buffer place ids)[i]? =
      if place ≤ i ∧ i < place + ids.length then ids[i - place]? else buffer[i]? := by
  have front : (buffer.take place).length = place := List.length_take_of_le (by omega)
  rw [overwrite, List.append_assoc]
  by_cases before : i < place
  · rw [List.getElem?_append_left (by omega), List.getElem?_take_of_lt before, if_neg (by omega)]
  · rw [List.getElem?_append_right (by omega), front]
    by_cases inside : i < place + ids.length
    · rw [List.getElem?_append_left (by omega), if_pos ⟨by omega, inside⟩]
    · rw [List.getElem?_append_right (by omega), List.getElem?_drop, if_neg (by omega)]
      congr 1
      omega

theorem length_overwrite (fits : place + ids.length ≤ buffer.length) :
    (overwrite buffer place ids).length = buffer.length := by
  simp only [overwrite, List.length_append, List.length_take, List.length_drop]
  omega

theorem mem_overwrite {n : Int32} (h : n ∈ overwrite buffer place ids) : n ∈ buffer ∨ n ∈ ids := by
  rcases List.mem_append.mp h with h | behind
  · exact (List.mem_append.mp h).imp_left List.mem_of_mem_take
  · exact Or.inl (List.mem_of_mem_drop behind)

theorem getElem?_slice (width i : Nat) : ((buffer.drop place).take width)[i]? =
    if i < width then buffer[place + i]? else none := by
  rw [List.getElem?_take, List.getElem?_drop]

theorem slice_overwrite (inside : place + width ≤ buffer.length) (short : ids.length ≤ width)
    (unused : (buffer.drop place).take width = padded width []) :
    ((overwrite buffer place ids).drop place).take width = padded width ids := by
  refine List.ext_getElem? fun i => ?_
  have old := congrArg (·[i]?) unused
  simp only [getElem?_slice, padded, List.nil_append, List.length_nil, Nat.sub_zero,
    List.getElem?_replicate] at old
  rw [getElem?_slice, getElem?_overwrite (by omega), Nat.add_sub_cancel_left, padded]
  by_cases used : i < ids.length
  · rw [if_pos (by omega), if_pos (by omega), List.getElem?_append_left used]
  · rw [if_neg (show ¬(_ ≤ _ ∧ place + i < place + _) by omega), old,
      List.getElem?_append_right (by omega), List.getElem?_replicate]
    exact if_congr (by omega) rfl rfl

theorem slice_overwrite_apart {place' : Nat} (inside : place' + ids.length ≤ buffer.length)
    (apart : place + width ≤ place' ∨ place' + ids.length ≤ place) :
    ((overwrite buffer place' ids).drop place).take width = (buffer.drop place).take width := by
  refine List.ext_getElem? fun i => ?_
  rw [getElem?_slice, getElem?_slice]
  by_cases within : i < width
  · rw [getElem?_overwrite inside, if_neg (show ¬(place' ≤ _ ∧ _) by omega)]
  · rw [if_neg within, if_neg within]

end Buffer

def mobilityOf (isVacancy : Bool) (ids : List Int32) : Mobility :=
  if ids = [] then .immobile else if isVacancy then .mobile else .selectable

theorem mobilityOf_immobile {isVacancy : Bool} :
    mobilityOf isVacancy ids = .immobile ↔ ids = [] := by
  cases ids <;> cases isVacancy <;> simp [mobilityOf]

theorem mobilityOf_selectable {isVacancy : Bool} :
    mobilityOf isVacancy ids = .selectable ↔ ids ≠ [] ∧ isVacancy = false := by
  cases ids <;> cases isVacancy <;> simp [mobilityOf]

variable {particles : List Particle} {index : JumpIndex} {rows columns width : Nat}

section Fill

variable (particles : List Particle) (index : JumpIndex) (p k : Nat) (ids : List Int32)

@[simp] theorem fill_particleCount :
    (fill particles index (p, k, ids)).particleCount = index.particleCount := by
  cases ids <;> cases vacancy : isVacancy particles k <;> simp [fill, vacancy]

@[simp] theorem fill_maxDirections :
    (fill particles index (p, k, ids)).maxDirections = index.maxDirections := by
  cases ids <;> cases vacancy : isVacancy particles k <;> simp [fill, vacancy]

@[simp] theorem fill_counts : (fill particles index (p, k, ids)).counts =
    index.counts.modify p (·.set k (Int32.ofNat ids.length)) := by
  cases ids <;> cases vacancy : isVacancy particles k <;> simp [fill, vacancy]

@[simp] theorem fill_assignments : (fill particles index (p, k, ids)).assignments =
    overwrite index.assignments (index.place p k) ids := by
  cases ids <;> cases vacancy : isVacancy particles k <;> simp [fill, vacancy]

@[simp] theorem fill_mobilities : (fill particles index (p, k, ids)).mobilities =
    if ids = [] then index.mobilities
    else index.mobilities.modify p (·.set k (mobilityOf (isVacancy particles k) ids)) := by
  cases ids <;> cases vacancy : isVacancy particles k <;> simp [fill, mobilityOf, vacancy]

@[simp] theorem fill_selectionMasks : (fill particles index (p, k, ids)).selectionMasks =
    if mobilityOf (isVacancy particles k) ids = .selectable then
      index.selectionMasks.modify p (· ||| (1 <<< UInt64.ofNat k))
    else index.selectionMasks := by
  cases ids <;> cases vacancy : isVacancy particles k <;> simp [fill, mobilityOf, vacancy]

@[simp] theorem fill_place (p' k' : Nat) :
    (fill particles index (p, k, ids)).place p' k' = index.place p' k' := by
  simp [place]

end Fill

/-! ## Sizes -/

structure Sized (rows columns width : Nat) (index : JumpIndex) : Prop where
  particleCount : index.particleCount = columns
  maxDirections : index.maxDirections = width
  counts : index.counts.length = rows
  assignments : index.assignments.length = rows * columns * width
  mobilities : index.mobilities.length = rows
  mobility : ∀ row ∈ index.mobilities, row.length = columns
  selectionMasks : index.selectionMasks.length = rows

structure Fits (rows columns width p k : Nat) (ids : List Int32) : Prop where
  row : p < rows
  column : k < columns
  short : ids.length ≤ width

theorem Sized.place_le (sized : Sized rows columns width index) (hp : p < rows) (hk : k < columns) :
    index.place p k + width ≤ index.assignments.length := by
  have cell : p * columns + k + 1 ≤ rows * columns := by
    have := Nat.mul_le_mul_right columns hp
    rw [Nat.succ_mul] at this
    omega
  have places := Nat.mul_le_mul_right width cell
  rw [Nat.succ_mul] at places
  rwa [place, sized.particleCount, sized.maxDirections, sized.assignments]

theorem Sized.place_le_place (sized : Sized rows columns width index) (hk : k < columns)
    (before : p < p' ∨ p = p' ∧ k < k') : index.place p k + width ≤ index.place p' k' := by
  have cell : p * columns + k + 1 ≤ p' * columns + k' := by
    rcases before with before | ⟨rfl, before⟩
    · have := Nat.mul_le_mul_right columns before
      rw [Nat.succ_mul] at this
      omega
    · omega
  have places := Nat.mul_le_mul_right width cell
  rw [Nat.succ_mul] at places
  rwa [place, place, sized.particleCount, sized.maxDirections]

theorem Sized.places_apart (sized : Sized rows columns width index) (hk : k < columns)
    (hk' : k' < columns) (apart : (p, k) ≠ (p', k')) :
    index.place p k + width ≤ index.place p' k' ∨ index.place p' k' + width ≤ index.place p k := by
  rcases Nat.lt_trichotomy p p' with less | rfl | less
  · exact Or.inl (sized.place_le_place hk (Or.inl less))
  · rcases Nat.lt_or_gt_of_ne fun same => apart (congrArg _ same) with less | less
    · exact Or.inl (sized.place_le_place hk (Or.inr ⟨rfl, less⟩))
    · exact Or.inr (sized.place_le_place hk' (Or.inr ⟨rfl, less⟩))
  · exact Or.inr (sized.place_le_place hk' (Or.inl less))

theorem sized_blank (rows columns width : Nat) :
    Sized rows columns width (blank columns rows width) where
  particleCount := rfl
  maxDirections := rfl
  counts := List.length_replicate
  assignments := List.length_replicate
  mobilities := List.length_replicate
  mobility := fun row hrow => by rw [List.eq_of_mem_replicate hrow, List.length_replicate]
  selectionMasks := List.length_replicate

theorem Sized.fill (sized : Sized rows columns width index)
    (fits : Fits rows columns width p k ids) :
    Sized rows columns width (fill particles index (p, k, ids)) := by
  have inside := sized.place_le fits.row fits.column
  have short := fits.short
  constructor
  case particleCount => rw [fill_particleCount, sized.particleCount]
  case maxDirections => rw [fill_maxDirections, sized.maxDirections]
  case counts => rw [fill_counts, List.length_modify, sized.counts]
  case assignments => rw [fill_assignments, length_overwrite (by omega), sized.assignments]
  case mobilities =>
    rw [fill_mobilities]
    split
    · exact sized.mobilities
    · rw [List.length_modify, sized.mobilities]
  case mobility =>
    rw [fill_mobilities]
    split
    · exact sized.mobility
    · intro row hrow
      obtain ⟨i, hi⟩ := List.mem_iff_getElem?.mp hrow
      rw [List.getElem?_modify] at hi
      obtain ⟨old, hold, rfl⟩ := Option.map_eq_some_iff.mp hi
      have length := sized.mobility old (List.mem_of_getElem? hold)
      split
      · rw [List.length_set, length]
      · exact length
  case selectionMasks =>
    rw [fill_selectionMasks]
    split
    · rw [List.length_modify, sized.selectionMasks]
    · exact sized.selectionMasks

/-! ## Lists in the index -/

/-- The index tells of a particle on a position that the directions in the list are open to it. -/
structure Filled (particles : List Particle) (p k : Nat) (ids : List Int32) (index : JumpIndex) :
    Prop where
  count : cell? index.counts p k = some (Int32.ofNat ids.length)
  assigned : index.assigned p k = padded index.maxDirections ids
  mobility : cell? index.mobilities p k = some (mobilityOf (isVacancy particles k) ids)
  mask : ∃ mask, index.selectionMasks[p]? = some mask ∧
    (mask.toNat.testBit k ↔ mobilityOf (isVacancy particles k) ids = .selectable)

theorem filled_blank (hp : p < rows) (hk : k < columns) :
    Filled particles p k [] (blank columns rows width) := by
  have inside := (sized_blank rows columns width).place_le hp hk
  simp only [blank, List.length_replicate] at inside
  refine ⟨?_, ?_, ?_, 0, ?_, ?_⟩
  · simp [blank, cell?_replicate, hp, hk]
  · simp only [JumpIndex.assigned, padded, blank, List.drop_replicate, List.take_replicate,
      List.nil_append, List.length_nil, Nat.sub_zero]
    rw [Nat.min_eq_left (by omega)]
  · simp [blank, cell?_replicate, hp, hk, mobilityOf]
  · simp [blank, hp]
  · simp [mobilityOf]

theorem Filled.fill (filled : Filled particles p k [] index)
    (sized : Sized rows columns width index)
    (fits : Fits rows columns width p k ids) (few : columns ≤ particleLimit) :
    Filled particles p k ids (fill particles index (p, k, ids)) := by
  constructor
  case count =>
    rw [fill_counts, cell?_modify_set, filled.count]
    simp
  case assigned =>
    have unused := filled.assigned
    rw [JumpIndex.assigned, sized.maxDirections] at unused
    rw [JumpIndex.assigned, fill_assignments, fill_place, fill_maxDirections, sized.maxDirections]
    exact slice_overwrite (sized.place_le fits.row fits.column) fits.short unused
  case mobility =>
    rw [fill_mobilities]
    split
    · next empty => rw [filled.mobility, empty]
    · rw [cell?_modify_set, filled.mobility]
      simp
  case mask =>
    obtain ⟨mask, hmask, bit⟩ := filled.mask
    have dark : mask.toNat.testBit k = false := by simpa [mobilityOf] using bit
    rw [fill_selectionMasks]
    split
    · next selectable =>
      refine ⟨mask ||| (1 <<< UInt64.ofNat k), by simp [hmask], ?_⟩
      rw [testBit_mark mask (Nat.lt_of_lt_of_le fits.column few)]
      simp [selectable]
    · next other => exact ⟨mask, hmask, by simp [dark, other]⟩

theorem Filled.fill_other (filled : Filled particles p k ids index)
    (sized : Sized rows columns width index) (hk : k < columns)
    (fits : Fits rows columns width p' k' ids') (few : columns ≤ particleLimit)
    (apart : (p', k') ≠ (p, k)) :
    Filled particles p k ids (JumpIndex.fill particles index (p', k', ids')) := by
  have other : ¬(p' = p ∧ k' = k) := fun same => apart (Prod.ext same.1 same.2)
  constructor
  case count =>
    rw [fill_counts, cell?_modify_set, filled.count]
    simp [other]
  case assigned =>
    have inside := sized.place_le fits.row fits.column
    have short := fits.short
    have places := sized.places_apart hk fits.column apart.symm
    rw [JumpIndex.assigned, fill_assignments, fill_place, fill_maxDirections, ← filled.assigned]
    refine slice_overwrite_apart (by omega) ?_
    rw [sized.maxDirections]
    omega
  case mobility =>
    rw [fill_mobilities]
    split
    · exact filled.mobility
    · rw [cell?_modify_set, filled.mobility]
      simp [other]
  case mask =>
    obtain ⟨mask, hmask, bit⟩ := filled.mask
    rw [fill_selectionMasks]
    split
    · by_cases here : p' = p
      · refine ⟨mask ||| (1 <<< UInt64.ofNat k'), by simp [here, hmask], ?_⟩
        have differ : k' ≠ k := fun same => other ⟨here, same⟩
        rw [testBit_mark mask (Nat.lt_of_lt_of_le fits.column few)]
        simp [differ, bit]
      · exact ⟨mask, by simp [here, hmask], bit⟩
    · exact ⟨mask, hmask, bit⟩

section Fold

variable {cs : List (Nat × Nat × List Int32)}

theorem Sized.foldl (sized : Sized rows columns width index)
    (fits : ∀ p k ids, (p, k, ids) ∈ cs → Fits rows columns width p k ids) :
    Sized rows columns width (cs.foldl (JumpIndex.fill particles) index) := by
  induction cs generalizing index with
  | nil => exact sized
  | cons c rest ih =>
    obtain ⟨p, k, ids⟩ := c
    exact ih (sized.fill (fits p k ids List.mem_cons_self)) fun p k ids h =>
      fits p k ids (List.mem_cons_of_mem _ h)

theorem Filled.foldl_other (filled : Filled particles p k ids index)
    (sized : Sized rows columns width index) (hk : k < columns)
    (fits : ∀ p k ids, (p, k, ids) ∈ cs → Fits rows columns width p k ids)
    (few : columns ≤ particleLimit) (apart : ∀ c ∈ cs, (c.1, c.2.1) ≠ (p, k)) :
    Filled particles p k ids (cs.foldl (JumpIndex.fill particles) index) := by
  induction cs generalizing index with
  | nil => exact filled
  | cons c rest ih =>
    obtain ⟨p', k', ids'⟩ := c
    have fit := fits p' k' ids' List.mem_cons_self
    exact ih (filled.fill_other sized hk fit few (apart _ List.mem_cons_self)) (sized.fill fit)
      (fun p k ids h => fits p k ids (List.mem_cons_of_mem _ h))
      fun c hc => apart c (List.mem_cons_of_mem _ hc)

theorem Filled.foldl (filled : Filled particles p k [] index)
    (sized : Sized rows columns width index) (hk : k < columns)
    (fits : ∀ p k ids, (p, k, ids) ∈ cs → Fits rows columns width p k ids)
    (few : columns ≤ particleLimit)
    (once : cs.Pairwise fun a b => (a.1, a.2.1) ≠ (b.1, b.2.1)) (h : (p, k, ids) ∈ cs) :
    Filled particles p k ids (cs.foldl (JumpIndex.fill particles) index) := by
  induction cs generalizing index with
  | nil => cases h
  | cons c rest ih =>
    obtain ⟨p', k', ids'⟩ := c
    obtain ⟨here, once⟩ := List.pairwise_cons.mp once
    have fit := fits p' k' ids' List.mem_cons_self
    have behind : ∀ p k ids, (p, k, ids) ∈ rest → Fits rows columns width p k ids :=
      fun p k ids h => fits p k ids (List.mem_cons_of_mem _ h)
    rw [List.foldl_cons]
    rcases List.mem_cons.mp h with same | later
    · cases same
      exact (filled.fill sized fit few).foldl_other (sized.fill fit) hk behind few
        fun c hc => (here c hc).symm
    · exact ih (filled.fill_other sized hk fit few (here _ later)) (sized.fill fit) behind once
        later

end Fold

variable {positionTotal : Nat}

theorem fits_cells (h : (p, k, ids) ∈ cells (listsOf columns positionTotal entries)) :
    Fits positionTotal columns (widthOf (listsOf columns positionTotal entries)) p k ids := by
  have cell := mem_cells.mp h
  obtain ⟨⟨hp, hk⟩, _⟩ := (cell?_listsOf _ _ _).mp cell
  exact ⟨hp, hk, length_le_widthOf cell⟩

theorem sized_ofEntries (particles : List Particle) (positionTotal : Nat) (entries : List Entry) :
    Sized positionTotal particles.length
      (widthOf (listsOf particles.length positionTotal entries))
      (ofEntries particles positionTotal entries) :=
  (sized_blank _ _ _).foldl fun _ _ _ => fits_cells

/-- The index of the entries holds, for every particle on every position, what is open to it. -/
theorem filled_ofEntries (few : particles.length ≤ particleLimit) (entries : List Entry)
    (hp : p < positionTotal) (hk : k < particles.length) :
    Filled particles p k ((opened entries p k).map Int32.ofNat)
      (ofEntries particles positionTotal entries) := by
  have listed := mem_cells.mpr ((cell?_listsOf _ _ entries).mpr ⟨⟨hp, hk⟩, rfl⟩)
  exact (filled_blank hp hk).foldl (sized_blank _ _ _) hk (fun _ _ _ => fits_cells) few
    (cells_apart _) listed

theorem opened_length_le_width (entries : List Entry) (hp : p < positionTotal)
    (hk : k < particles.length) :
    (opened entries p k).length ≤ (ofEntries particles positionTotal entries).maxDirections := by
  have short := length_le_widthOf ((cell?_listsOf _ _ entries).mpr ⟨⟨hp, hk⟩, rfl⟩)
  rwa [List.length_map, ← (sized_ofEntries particles positionTotal entries).maxDirections] at short

theorem padded_count {width : Nat} {ids : List Nat} (small : ∀ id ∈ ids, id < 2 ^ 31) :
    (padded width (ids.map Int32.ofNat)).countP (0 ≤ ·) = ids.length := by
  have used : (ids.map Int32.ofNat).countP (0 ≤ ·) = ids.length := by
    rw [← List.length_map (Int32.ofNat), List.countP_eq_length]
    intro n hn
    obtain ⟨id, hid, rfl⟩ := List.mem_map.mp hn
    rw [decide_eq_true_iff, Int32.le_iff_toInt_le, Int32.toInt_ofNat_of_lt (small id hid)]
    exact Int.natCast_nonneg id
  have unused (n : Nat) : (List.replicate n (-1 : Int32)).countP (0 ≤ ·) = 0 := by
    refine List.countP_eq_zero.mpr fun i hi => ?_
    rw [List.eq_of_mem_replicate hi]
    decide
  rw [padded, List.countP_append, used, unused, Nat.add_zero]

/-- The check of an index cannot fail on the index of fewer than `2 ^ 31` entries. -/
theorem verify_ofEntries (few : particles.length ≤ particleLimit)
    (small : ∀ entry ∈ entries, entry.id < 2 ^ 31) (short : entries.length < 2 ^ 31) :
    (ofEntries particles positionTotal entries).verify = .ok () := by
  have sized := sized_ofEntries particles positionTotal entries
  rw [verify, sized.counts, sized.particleCount]
  refine forM_ok_iff.mpr fun p hp => forM_ok_iff.mpr fun k hk => ?_
  have filled := filled_ofEntries few entries (List.mem_range.mp hp) (List.mem_range.mp hk)
  have length : (opened entries p k).length < 2 ^ 31 :=
    Nat.lt_of_le_of_lt (opened_length_le p k) short
  refine if_pos ?_
  rw [count, filled.count, filled.assigned, List.length_map, Option.getD_some,
    Int32.toInt_ofNat_of_lt length, padded_count]
  intro id hid
  obtain ⟨entry, hentry, _, _, rfl⟩ := mem_opened.mp hid
  exact small entry hentry

theorem mem_assignments {n : Int32}
    (h : n ∈ (ofEntries particles positionTotal entries).assignments) :
    n = -1 ∨ ∃ entry ∈ entries, n = Int32.ofNat entry.id := by
  have step : ∀ (cs : List (Nat × Nat × List Int32)) (index : JumpIndex),
      n ∈ (cs.foldl (fill particles) index).assignments →
        n ∈ index.assignments ∨ ∃ c ∈ cs, n ∈ c.2.2 := by
    intro cs
    induction cs with
    | nil => exact fun _ h => Or.inl h
    | cons c rest ih =>
      intro index h
      rcases ih _ h with filled | ⟨c', hc', hn⟩
      · rw [fill_assignments] at filled
        rcases mem_overwrite filled with old | new
        · exact Or.inl old
        · exact Or.inr ⟨c, List.mem_cons_self, new⟩
      · exact Or.inr ⟨c', List.mem_cons_of_mem c hc', hn⟩
  rcases step _ _ h with unused | ⟨⟨p, k, ids⟩, hc, hn⟩
  · exact Or.inl (List.eq_of_mem_replicate unused)
  · obtain ⟨_, rfl⟩ := (cell?_listsOf _ _ _).mp (mem_cells.mp hc)
    obtain ⟨id, hid, rfl⟩ := List.mem_map.mp hn
    obtain ⟨entry, hentry, _, _, rfl⟩ := mem_opened.mp hid
    exact Or.inr ⟨entry, hentry, rfl⟩

end JumpIndex

end CrystalModel
