import CrystalModel.Path.Ring
import Mathlib.Data.List.Nodup
import Mathlib.Tactic.Push

/-! # Rings on the lattice

The steps of a path add up to the way between its ends, so the running sum comes back to zero
where a position is met again. -/
namespace CrystalModel

namespace CrystalVector

theorem add_step (first here next : CrystalVector) :
    here - first + (next - here) = next - first := by
  have word : ∀ a b c : Int32, b - a + (c - b) = c - a := by
    intro a b c
    grind
  obtain ⟨a, b, c, p⟩ := first
  obtain ⟨a', b', c', p'⟩ := here
  obtain ⟨a'', b'', c'', p''⟩ := next
  change (⟨a' - a + (a'' - a'), b' - b + (b'' - b'), c' - c + (c'' - c'), p' - p + (p'' - p')⟩ :
    CrystalVector) = ⟨a'' - a, b'' - b, c'' - c, p'' - p⟩
  rw [word, word, word, word]

theorem sub_eq_zero {v w : CrystalVector} : v - w = zero ↔ v = w := by
  have word : ∀ a b : Int32, a - b = 0 ↔ a = b := by
    intro a b
    grind
  obtain ⟨a, b, c, p⟩ := v
  obtain ⟨a', b', c', p'⟩ := w
  change (⟨a - a', b - b', c - c', p - p'⟩ : CrystalVector) = ⟨0, 0, 0, 0⟩ ↔ _
  simp only [mk.injEq, word]

@[simp] theorem sub_self (v : CrystalVector) : v - v = zero :=
  sub_eq_zero.mpr rfl

end CrystalVector

theorem returns_iff {first here : CrystalVector} {rest : List CrystalVector} :
    returns (· == CrystalVector.zero) (here - first) (here :: rest) = true ↔ first ∈ rest := by
  induction rest generalizing here with
  | nil => simp [returns]
  | cons next rest ih =>
    rw [returns, CrystalVector.add_step, Bool.or_eq_true_iff, ih, List.mem_cons, beq_iff_eq,
      CrystalVector.sub_eq_zero, eq_comm]

/-- A path is a ring when it meets one of its positions again. -/
theorem isCrystalRing_iff {path : List CrystalVector} :
    isCrystalRing path = true ↔ ¬path.Nodup := by
  unfold isCrystalRing
  induction path with
  | nil => simp [revisits]
  | cons here rest ih =>
    have back : returns (· == CrystalVector.zero) CrystalVector.zero (here :: rest) = true ↔
        here ∈ rest := by
      have back := @returns_iff here here rest
      rwa [CrystalVector.sub_self] at back
    rw [revisits, Bool.or_eq_true_iff, back, ih, List.nodup_cons]
    by_cases again : here ∈ rest <;> simp [again]

theorem isCrystalRing_iff_getElem? {path : List CrystalVector} : isCrystalRing path = true ↔
    ∃ (i j : Nat) (v : CrystalVector), i < j ∧ path[i]? = some v ∧ path[j]? = some v := by
  rw [isCrystalRing_iff, List.nodup_iff_getElem?_ne_getElem?]
  constructor
  · intro twice
    push Not at twice
    obtain ⟨i, j, before, hj, same⟩ := twice
    have found := List.getElem?_eq_getElem hj
    exact ⟨i, j, path[j], before, same.trans found, found⟩
  · rintro ⟨i, j, v, before, hi, hj⟩ once
    have hlt := (List.getElem?_eq_some_iff.mp hj).1
    exact once i j before hlt (hi.trans hj.symm)

end CrystalModel
