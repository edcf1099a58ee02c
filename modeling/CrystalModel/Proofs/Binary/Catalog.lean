import CrystalModel.Binary.Catalog
import Mathlib.Data.String.Basic
import Mathlib.Order.Defs.LinearOrder

/-! # Entries of a catalog

An insertion changes the entry of its key only. In a merge the newer entries win. -/
namespace CrystalModel.Catalog

variable {α : Type} {c newer : Catalog α} {key k : String} {value : α}

theorem get?_cons (entry : String × α) (c : Catalog α) (k : String) :
    get? (entry :: c) k = if k = entry.1 then some entry.2 else get? c k := by
  by_cases h : k = entry.1
  · rw [if_pos h, h]
    exact List.lookup_cons_self
  · rw [if_neg h]
    have differ : (k == entry.1) = false := beq_eq_false_iff_ne.mpr h
    rw [get?, List.lookup_cons, differ]
    rfl

@[simp] theorem get?_insert (c : Catalog α) (key k : String) (value : α) :
    (c.insert key value).get? k = if k = key then some value else c.get? k := by
  induction c with
  | nil => rw [insert, get?_cons]
  | cons entry rest ih =>
    obtain ⟨first, old⟩ := entry
    rw [insert]
    split
    · rw [get?_cons]
    · split
      · next same =>
        rw [get?_cons, get?_cons, same]
        split <;> rfl
      · next differ =>
        rw [get?_cons, ih, get?_cons]
        by_cases h : k = first
        · have other : k ≠ key := fun same => differ (same.symm.trans h)
          rw [if_pos h, if_neg other, if_pos h]
        · rw [if_neg h, if_neg h]

theorem get?_eq_none_iff : c.get? k = none ↔ k ∉ c.keys := by
  simp only [get?, List.lookup_eq_none_iff, keys, List.mem_map, bne_iff_ne, not_exists, not_and,
    ne_comm, ne_eq]

theorem mem_values_insert {a : α} (h : a ∈ (c.insert key value).values) :
    a = value ∨ a ∈ c.values := by
  induction c with
  | nil => simpa [insert, values] using h
  | cons entry rest ih =>
    obtain ⟨first, old⟩ := entry
    rw [insert] at h
    split at h
    · exact List.mem_cons.mp h
    · split at h
      · exact (List.mem_cons.mp h).imp_right (List.mem_cons_of_mem _)
      · rcases List.mem_cons.mp h with rfl | h
        · exact .inr List.mem_cons_self
        · exact (ih h).imp_right (List.mem_cons_of_mem _)

/-! ## The order of the keys -/

def Ordered (c : Catalog α) : Prop := c.keys.Pairwise (· < ·)

theorem Ordered.empty : (empty : Catalog α).Ordered := List.Pairwise.nil

@[simp] theorem mem_keys_insert : k ∈ (c.insert key value).keys ↔ k = key ∨ k ∈ c.keys := by
  induction c with
  | nil => simp [insert, keys]
  | cons entry rest ih =>
    obtain ⟨first, old⟩ := entry
    rw [insert]
    split
    · simp [keys]
    · split
      · next same => simp [keys, same]
      · simp only [keys, List.map_cons, List.mem_cons] at ih ⊢
        rw [ih, or_left_comm]

theorem Ordered.insert (h : c.Ordered) : (c.insert key value).Ordered := by
  induction c with
  | nil => simp [Catalog.insert, Ordered, keys]
  | cons entry rest ih =>
    obtain ⟨first, old⟩ := entry
    obtain ⟨least, ordered⟩ := List.pairwise_cons.mp h
    rw [Catalog.insert]
    split
    · next less =>
      refine List.pairwise_cons.mpr ⟨fun k hk => ?_, h⟩
      rcases List.mem_cons.mp hk with rfl | hk
      · exact less
      · exact less.trans (least k hk)
    · split
      · next same => exact same ▸ h
      · next notLess differ =>
        refine List.pairwise_cons.mpr ⟨fun k hk => ?_, ih ordered⟩
        rcases mem_keys_insert.mp hk with rfl | hk
        · exact lt_of_le_of_ne (not_lt.mp notLess) (Ne.symm differ)
        · exact least k hk

theorem length_insert (new : key ∉ c.keys) : (c.insert key value).length = c.length + 1 := by
  induction c with
  | nil => rfl
  | cons entry rest ih =>
    obtain ⟨first, old⟩ := entry
    simp only [keys, List.map_cons, List.mem_cons, not_or] at new
    rw [Catalog.insert, if_neg new.1]
    split
    · rfl
    · rw [List.length_cons, ih new.2, List.length_cons]

@[simp] theorem mem_keys_merge : k ∈ (c.merge newer).keys ↔ k ∈ c.keys ∨ k ∈ newer.keys := by
  induction newer generalizing c with
  | nil => simp [merge, keys]
  | cons entry rest ih =>
    have step : c.merge (entry :: rest) = (c.insert entry.1 entry.2).merge rest := rfl
    rw [step, ih, mem_keys_insert, keys, keys, keys, List.map_cons, List.mem_cons, or_assoc,
      or_left_comm]

theorem get?_merge (h : newer.Ordered) :
    (c.merge newer).get? k = (newer.get? k).or (c.get? k) := by
  induction newer generalizing c with
  | nil => rfl
  | cons entry rest ih =>
    obtain ⟨key, value⟩ := entry
    obtain ⟨least, ordered⟩ := List.pairwise_cons.mp h
    have step : c.merge ((key, value) :: rest) = (c.insert key value).merge rest := rfl
    rw [step, ih ordered, get?_insert, get?_cons]
    split
    · next same =>
      have absent : get? rest k = none := get?_eq_none_iff.mpr fun hk =>
        lt_irrefl key (least key (same ▸ hk))
      rw [absent]
      rfl
    · rfl

end CrystalModel.Catalog
