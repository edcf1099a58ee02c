import CrystalModel.Output.Key
import CrystalModel.Proofs.Binary.Catalog
import Mathlib.Data.List.Induction

/-! # Keys and the blobs behind them

A key can be read back, so different blobs of a simulation do not share a key, and what is put
under a key is found under it. -/
namespace CrystalModel

theorem parts_of_append {a a' s s' : List Char} {x : Char} (ha : x ∉ a) (ha' : x ∉ a')
    (hs : ∀ c ∈ s.head?, c = x) (hs' : ∀ c ∈ s'.head?, c = x) (h : a ++ s = a' ++ s') :
    a = a' ∧ s = s' := by
  have cut : ∀ {b u : List Char}, x ∉ b → (∀ c ∈ u.head?, c = x) →
      (b ++ u).takeWhile (· != x) = b := by
    intro b u hb hu
    rw [List.takeWhile_append_of_pos (by
      intro c hc
      exact bne_iff_ne.mpr fun same => hb (same ▸ hc))]
    cases u with
    | nil => simp
    | cons c rest => simp [hu c rfl]
  have same : a = a' := by rw [← cut ha hs, h, cut ha' hs']
  subst same
  exact ⟨rfl, List.append_cancel_left h⟩

theorem slash_notMem_digits (n : Nat) : '/' ∉ Nat.toDigits 10 n := by
  intro h
  have := Nat.isDigit_of_mem_toDigits (by decide) (by decide) h
  revert this
  decide

theorem digits_inj {m n : Nat} (h : Nat.toDigits 10 m = Nat.toDigits 10 n) : m = n := by
  rw [← Nat.ofDigitChars_ten_toDigits (n := m), h, Nat.ofDigitChars_ten_toDigits]

theorem Binary.BlobType.slash_notMem_name (kind : Binary.BlobType) : '/' ∉ kind.name.toList := by
  cases kind <;> decide

theorem Binary.BlobType.name_inj {kind kind' : Binary.BlobType} (h : kind.name = kind'.name) :
    kind = kind' := by
  cases kind <;> cases kind' <;> first | rfl | exact absurd h (by decide)

def idText : Option Nat → List Char
  | some id => '/' :: Nat.toDigits 10 id
  | none => []

theorem keyText_toList (simulation : Nat) (kind : Binary.BlobType) (id : Option Nat) :
    (keyText simulation kind id).toList = ['s', 'i', 'm'] ++ (Nat.toDigits 10 simulation ++
      ('/' :: (kind.name.toList ++ idText id))) := by
  cases id <;> simp [keyText, idText, toString]

/-- A key belongs to one simulation, kind and id. -/
theorem keyText_eq {simulation simulation' : Nat} {kind kind' : Binary.BlobType}
    {id id' : Option Nat} (h : keyText simulation kind id = keyText simulation' kind' id') :
    simulation = simulation' ∧ kind = kind' ∧ id = id' := by
  have text := congrArg String.toList h
  rw [keyText_toList, keyText_toList, List.append_right_inj] at text
  obtain ⟨number, rest⟩ := parts_of_append (slash_notMem_digits _) (slash_notMem_digits _)
    (by simp) (by simp) text
  have starts : ∀ id, ∀ c ∈ (idText id).head?, c = '/' := by
    intro id
    cases id <;> simp [idText]
  obtain ⟨name, suffix⟩ := parts_of_append kind.slash_notMem_name kind'.slash_notMem_name
    (starts id) (starts id') (List.cons.inj rest).2
  refine ⟨digits_inj number, Binary.BlobType.name_inj (String.toList_inj.mp name), ?_⟩
  cases id with
  | none => cases id' with
    | none => rfl
    | some n => cases suffix
  | some m => cases id' with
    | none => cases suffix
    | some n => rw [digits_inj (List.cons.inj suffix).2]

namespace KeyedBlob

variable {simulation : Nat} {blobs : List KeyedBlob}

theorem toSet_append (front : List KeyedBlob) (b : KeyedBlob) : toSet simulation (front ++ [b]) =
    Catalog.insert (keyText simulation b.kind b.id) b.blob (toSet simulation front) := by
  rw [toSet, toSet, List.foldl_append]
  rfl

theorem get?_toSet {b : KeyedBlob} (hb : b ∈ blobs) : ∃ c ∈ blobs, c.kind = b.kind ∧ c.id = b.id ∧
    (toSet simulation blobs).get? (keyText simulation b.kind b.id) = some c.blob := by
  induction blobs using List.reverseRecOn with
  | nil => cases hb
  | append_singleton front last ih =>
    rw [toSet_append]
    by_cases same : keyText simulation b.kind b.id = keyText simulation last.kind last.id
    · obtain ⟨_, kind, id⟩ := keyText_eq same
      exact ⟨last, by simp, kind.symm, id.symm, by rw [Catalog.get?_insert, if_pos same]⟩
    · have earlier : b ∈ front := by
        rcases List.mem_append.mp hb with hb | hb
        · exact hb
        · rw [List.mem_singleton.mp hb] at same
          exact absurd rfl same
      obtain ⟨c, hc, kind, id, found⟩ := ih earlier
      exact ⟨c, List.mem_append_left _ hc, kind, id,
        by rw [Catalog.get?_insert, if_neg same, found]⟩

theorem values_toSet {blob : Binary.Blob} (h : blob ∈ (toSet simulation blobs).values) :
    ∃ b ∈ blobs, b.blob = blob := by
  induction blobs using List.reverseRecOn with
  | nil => cases h
  | append_singleton front last ih =>
    rw [toSet_append] at h
    rcases Catalog.mem_values_insert h with rfl | h
    · exact ⟨last, by simp, rfl⟩
    · obtain ⟨b, hb, same⟩ := ih h
      exact ⟨b, List.mem_append_left _ hb, same⟩

theorem mem_keys_toSet {k : String} : k ∈ (toSet simulation blobs).keys ↔
    ∃ b ∈ blobs, keyText simulation b.kind b.id = k := by
  induction blobs using List.reverseRecOn with
  | nil => simp [toSet, Catalog.empty, Catalog.keys]
  | append_singleton front last ih =>
    rw [toSet_append, Catalog.mem_keys_insert, ih]
    simp only [List.mem_append, List.mem_singleton, or_and_right, exists_or, exists_eq_left]
    rw [or_comm, eq_comm]

theorem toSet_ordered (simulation : Nat) (blobs : List KeyedBlob) :
    (toSet simulation blobs).Ordered := by
  induction blobs using List.reverseRecOn with
  | nil => exact .empty
  | append_singleton front last ih =>
    rw [toSet_append]
    exact ih.insert

theorem get?_toSet_unique {b : KeyedBlob} (hb : b ∈ blobs)
    (unique : ∀ c ∈ blobs, c.kind = b.kind → c.id = b.id → c = b) :
    (toSet simulation blobs).get? (keyText simulation b.kind b.id) = some b.blob := by
  obtain ⟨c, hc, kind, id, found⟩ := @get?_toSet simulation _ _ hb
  rw [found, unique c hc kind id]

end KeyedBlob

end CrystalModel
