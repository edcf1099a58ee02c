import CrystalModel.Proofs.Rule.Enumeration
import Mathlib.Data.List.Nodup
import Mathlib.Logic.Equiv.Basic

/-! # Exchanges along a path

The exchanges of a path lead on: each one starts where the one before it ended, or behind. So a
position is the start of at most one exchange and the end of at most one. -/
namespace CrystalModel

theorem pairUp_flatMap (exchanges : List (Nat × Nat)) :
    pairUp (exchanges.flatMap fun (i, j) => [i, j]) = exchanges := by
  induction exchanges with
  | nil => rfl
  | cons first rest ih => rw [List.flatMap_cons, List.cons_append, List.cons_append,
      List.nil_append, pairUp, ih]

section Swap

variable {α : Type} {xs : List α} {i j : Nat}

theorem swapPlaces_eq (hi : i < xs.length) (hj : j < xs.length) :
    swapPlaces xs i j = (xs.set i xs[j]).set j xs[i] := by
  simp [swapPlaces, hi, hj]

@[simp] theorem swapPlaces_length (xs : List α) (i j : Nat) :
    (swapPlaces xs i j).length = xs.length := by
  unfold swapPlaces
  split
  · rw [List.length_set, List.length_set]
  · rfl

theorem swapPlaces_perm (hi : i < xs.length) (hj : j < xs.length) :
    (swapPlaces xs i j).Perm xs := by
  rw [swapPlaces_eq hi hj]
  exact List.set_set_perm hi hj

theorem getElem?_swapPlaces (hi : i < xs.length) (hj : j < xs.length) (k : Nat) :
    (swapPlaces xs i j)[k]? = xs[Equiv.swap i j k]? := by
  rw [swapPlaces_eq hi hj, List.getElem?_set, List.getElem?_set, List.length_set,
    Equiv.swap_apply_def]
  by_cases first : k = i
  · subst first
    by_cases both : j = k
    · subst both
      simp [hj]
    · simp [both, hi, hj]
  · by_cases second : k = j
    · subst second
      simp [first, hi, hj]
    · simp [first, second, Ne.symm first, Ne.symm second]

end Swap

def Clear (e f : Nat × Nat) : Prop := e.1 ≠ f.1 ∧ e.1 ≠ f.2 ∧ e.2 ≠ f.1 ∧ e.2 ≠ f.2

instance (e f : Nat × Nat) : Decidable (Clear e f) :=
  inferInstanceAs (Decidable (_ ∧ _))

/-- Every exchange leads on along the path, and starts where the one before it ended or behind. -/
structure Ascending (exchanges : List (Nat × Nat)) : Prop where
  forward : ∀ e ∈ exchanges, e.1 < e.2
  ordered : exchanges.Pairwise fun e f => e.2 ≤ f.1

namespace Ascending

variable {exchanges : List (Nat × Nat)}

theorem filter (h : Ascending exchanges) (p : Nat × Nat → Bool) :
    Ascending (exchanges.filter p) :=
  ⟨fun e he => h.forward e (List.mem_of_mem_filter he), h.ordered.filter p⟩

theorem starts_nodup (h : Ascending exchanges) : (exchanges.map Prod.fst).Nodup := by
  rw [List.Nodup, List.pairwise_map]
  refine h.ordered.imp_of_mem ?_
  intro e f he _ behind
  have := h.forward e he
  omega

theorem ends_nodup (h : Ascending exchanges) : (exchanges.map Prod.snd).Nodup := by
  rw [List.Nodup, List.pairwise_map]
  refine h.ordered.imp_of_mem ?_
  intro e f _ hf behind
  have := h.forward f hf
  omega

end Ascending

namespace Generate

def exchanged (exchanges : List (Nat × Nat)) : List Nat := exchanges.flatMap fun (i, j) => [i, j]

theorem movement_eq (positions : List PositionOffer) (connectors : List Connector) :
    movement positions connectors = exchanged (exchanges positions connectors 0) :=
  rfl

theorem count_exchanged (p : Nat) (exchanges : List (Nat × Nat)) :
    (exchanged exchanges).count p =
      (exchanges.map Prod.fst).count p + (exchanges.map Prod.snd).count p := by
  induction exchanges with
  | nil => rfl
  | cons first rest ih =>
    have split : exchanged (first :: rest) = first.1 :: first.2 :: exchanged rest := rfl
    rw [split, List.map_cons, List.map_cons]
    simp only [List.count_cons, ih]
    omega

theorem mem_exchanged {p : Nat} {exchanges : List (Nat × Nat)} :
    p ∈ exchanged exchanges ↔ ∃ e ∈ exchanges, p = e.1 ∨ p = e.2 := by
  simp [exchanged]

variable {positions : List PositionOffer} {connectors : List Connector}

theorem passOver_inside {i : Nat} (inside : i + 1 < positions.length) :
    passOver positions i + 1 < positions.length := by
  fun_induction passOver positions i with
  | case1 i further ih => exact ih further.1
  | case2 i _ => exact inside

theorem passOver_stops (positions : List PositionOffer) (i : Nat) :
    isUnstable positions (passOver positions i + 1) = false ∨
      positions.length ≤ passOver positions i + 2 := by
  fun_induction passOver positions i with
  | case1 i _ ih => exact ih
  | case2 i stop =>
    by_cases inside : i + 2 < positions.length
    · exact Or.inl (by simpa [inside] using stop)
    · exact Or.inr (by omega)

/-- The positions that are passed over are unstable, and from each of them the way is the same. -/
theorem passOver_between {i k : Nat} (behind : i < k) (before : k ≤ passOver positions i) :
    isUnstable positions k = true ∧ passOver positions k = passOver positions i := by
  fun_induction passOver positions i with
  | case1 i further ih =>
    by_cases next : k = i + 1
    · exact ⟨next ▸ further.2, by rw [next]⟩
    · exact ih (by omega) before
  | case2 i _ => omega

theorem of_mem_exchanges {i : Nat} {e : Nat × Nat} (h : e ∈ exchanges positions connectors i) :
    i ≤ e.1 ∧ e.1 < connectors.length ∧ e.2 = passOver positions e.1 + 1 := by
  fun_induction exchanges positions connectors i with
  | case1 i inside _ ih =>
    rcases List.mem_cons.mp h with rfl | later
    · exact ⟨Nat.le_refl _, inside, rfl⟩
    · obtain ⟨behind, further⟩ := ih later
      have := le_passOver positions i
      exact ⟨by omega, further⟩
  | case2 i _ _ ih =>
    obtain ⟨behind, further⟩ := ih h
    exact ⟨by omega, further⟩
  | case3 => cases h

theorem exchanges_ascending (positions : List PositionOffer) (connectors : List Connector)
    (i : Nat) : Ascending (exchanges positions connectors i) := by
  constructor
  · intro e he
    have := le_passOver positions e.1
    rw [(of_mem_exchanges he).2.2]
    omega
  · fun_induction exchanges positions connectors i with
    | case1 i _ _ ih =>
      refine List.pairwise_cons.mpr ⟨?_, ih⟩
      intro f hf
      exact (of_mem_exchanges hf).1
    | case2 i _ _ ih => exact ih
    | case3 => exact .nil

theorem exchanges_inside (fits : positions.length = connectors.length + 1) {i : Nat}
    {e : Nat × Nat} (h : e ∈ exchanges positions connectors i) : e.2 < positions.length := by
  obtain ⟨_, inside, leads⟩ := of_mem_exchanges h
  rw [leads]
  exact passOver_inside (by omega)

end Generate

section Rules

variable {particles : List Particle} {positions : List PositionOffer}
  {connectors : List Connector} {metropolis : Bool} {pairs : List StatePair} {rule : Rule}

theorem Generate.Made.exchanges_eq
    (made : Generate.Made particles positions connectors metropolis pairs rule) :
    rule.exchanges = Generate.exchanges positions connectors 0 := by
  rw [Rule.exchanges, made.movement, Generate.movement, pairUp_flatMap]

end Rules

end CrystalModel
