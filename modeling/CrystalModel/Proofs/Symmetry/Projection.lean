import CrystalModel.Proofs.Fallible
import CrystalModel.Proofs.Places
import CrystalModel.Symmetry.Projection

/-! # Images by first discovery

Symmetry lists nothing but images, and an image has as many points as its source. -/
namespace CrystalModel.Symmetry

theorem mem_firsts {α : Type} {similar : α → α → Bool} {xs : List α} {a : α}
    (h : a ∈ firsts similar xs) : a ∈ xs := by
  suffices ∀ known : List α, a ∈ xs.foldl (fun known x =>
      if known.any (similar · x) then known else known ++ [x]) known → a ∈ known ∨ a ∈ xs by
    simpa using this [] h
  clear h
  induction xs with
  | nil => exact fun _ h => Or.inl h
  | cons x rest ih =>
    intro known h
    rw [List.foldl_cons] at h
    rcases ih _ h with old | later
    · by_cases seen : known.any (similar · x)
      · rw [if_pos seen] at old
        exact Or.inl old
      · rw [if_neg seen, List.mem_append, List.mem_singleton] at old
        rcases old with old | rfl
        · exact Or.inl old
        · exact Or.inr List.mem_cons_self
    · exact Or.inr (List.mem_cons_of_mem x later)

@[simp] theorem mem_firsts_iff {α : Type} [BEq α] [LawfulBEq α] {xs : List α} {a : α} :
    a ∈ firsts (· == ·) xs ↔ a ∈ xs := by
  refine ⟨mem_firsts, fun h => ?_⟩
  suffices ∀ known : List α, a ∈ known ∨ a ∈ xs → a ∈ xs.foldl (fun known x =>
      if known.any (· == x) then known else known ++ [x]) known from this [] (Or.inr h)
  clear h
  induction xs with
  | nil => simp
  | cons x rest ih =>
    intro known h
    rw [List.foldl_cons]
    refine ih _ ?_
    by_cases seen : known.any (· == x)
    · rw [if_pos seen]
      rcases h with old | h
      · exact Or.inl old
      · rcases List.mem_cons.mp h with rfl | later
        · simp only [List.any_eq_true, beq_iff_eq, exists_eq_right] at seen
          exact Or.inl seen
        · exact Or.inr later
    · rw [if_neg seen, List.mem_append, List.mem_singleton]
      rcases h with old | h
      · exact Or.inl (Or.inl old)
      · rcases List.mem_cons.mp h with rfl | later
        · exact Or.inl (Or.inr rfl)
        · exact Or.inr later

theorem firsts_apart {α : Type} (similar : α → α → Bool) (xs : List α) :
    (firsts similar xs).Pairwise fun a b => similar a b = false := by
  unfold firsts
  refine List.foldlRecOn (motive := fun known : List α =>
    known.Pairwise fun a b => similar a b = false) _ _ .nil ?_
  intro known apart x _
  split
  · exact apart
  · next new =>
    refine pairwise_concat apart ?_
    intro a ha
    apply Bool.eq_false_iff.mpr
    intro alike
    exact new (List.any_eq_true.mpr ⟨a, ha, alike⟩)

theorem firsts_eq_nil_iff {α : Type} {similar : α → α → Bool} {xs : List α} :
    firsts similar xs = [] ↔ xs = [] := by
  constructor
  · intro empty
    cases xs with
    | nil => rfl
    | cons x rest =>
      suffices stays : ∀ known : List α, known ≠ [] → rest.foldl (fun known x =>
          if known.any (similar · x) then known else known ++ [x]) known ≠ [] from
        absurd empty (stays [x] (List.cons_ne_nil x []))
      intro known nonempty
      refine List.foldlRecOn (motive := fun known : List α => known ≠ []) _ _ nonempty ?_
      intro known nonempty y _
      split
      · exact nonempty
      · exact List.append_ne_nil_of_left_ne_nil nonempty [y]
  · rintro rfl
    rfl

theorem pathImages_apart (s : Symmetry) (path : List Point) :
    (s.pathImages path).Pairwise fun a b => s.tolerance.closeSequences a b = false := by
  cases path with
  | nil => exact .nil
  | cons start rest => exact firsts_apart _ _

theorem sequenceImages_length {s : Symmetry} {origin : Point}
    {points sequence : List Point} (h : sequence ∈ s.sequenceImages origin points) :
    sequence.length = points.length := by
  obtain ⟨op, _, rfl⟩ := List.mem_map.mp (mem_firsts h)
  simp [Operation.applyAll]

theorem pathImages_length {s : Symmetry} {path points : List Point}
    (h : points ∈ s.pathImages path) : points.length = path.length := by
  cases path with
  | nil => simp [pathImages] at h
  | cons start rest =>
    obtain ⟨op, _, rfl⟩ := List.mem_map.mp (mem_firsts h)
    simp [pathImage]

/-- The operation carries the point onto itself moved back by the lattice vector. -/
def Keeps (s : Symmetry) (origin : Point) (op : Operation) (shift : Point) : Prop :=
  Fractional.latticeVector (origin - op.apply origin) = shift ∧
    s.tolerance.isZeroPoint (origin - op.apply origin - shift) = true

theorem carrying?_eq_some {s : Symmetry} {origin : Point} {op kept : Operation} :
    s.carrying? origin origin op = some kept ↔
      ∃ shift, s.Keeps origin op shift ∧ op.shifted shift = kept := by
  simp [carrying?, Keeps]

/-- Some operation keeps the point in place. -/
def Fixes (s : Symmetry) (origin : Point) : Prop :=
  ∃ op ∈ s.group.operations, ∃ shift, s.Keeps origin op shift

theorem siteOperations_eq_nil_iff {s : Symmetry} {origin : Point} :
    s.siteOperations origin = [] ↔ ¬s.Fixes origin := by
  rw [siteOperations, List.filterMap_eq_nil_iff, Fixes]
  constructor
  · rintro empty ⟨op, hop, shift, keeps⟩
    have kept := carrying?_eq_some.mpr ⟨shift, keeps, rfl⟩
    exact absurd (empty op hop) (kept ▸ Option.some_ne_none _)
  · intro never op hop
    refine Option.eq_none_iff_forall_ne_some.mpr fun kept hkept => never ?_
    obtain ⟨shift, keeps, _⟩ := carrying?_eq_some.mp hkept
    exact ⟨op, hop, shift, keeps⟩

theorem sequenceImages_eq_nil_iff {s : Symmetry} {origin : Point} {points : List Point} :
    s.sequenceImages origin points = [] ↔ ¬s.Fixes origin := by
  rw [sequenceImages, firsts_eq_nil_iff, List.map_eq_nil_iff, siteOperations_eq_nil_iff]

/-- Some operation that keeps the origin in place carries every point onto the one that the order
names for it. -/
def Reorders (s : Symmetry) (origin : Point) (points : List Point) (order : List Nat) : Prop :=
  ∃ op ∈ s.group.operations, ∃ shift, s.Keeps origin op shift ∧
    List.Forall₂ (fun point place =>
      s.tolerance.placeOf points ((op.shifted shift).apply point) = some place) points order

theorem mem_sitePermutations {s : Symmetry} {origin : Point} {points : List Point}
    {order : List Nat} :
    order ∈ s.sitePermutations origin points ↔ s.Reorders origin points order := by
  simp only [sitePermutations, mem_firsts_iff, siteOperations, List.mem_filterMap,
    carrying?_eq_some, mapM_some_iff, Reorders]
  constructor
  · rintro ⟨_, ⟨op, hop, shift, keeps, rfl⟩, ordered⟩
    exact ⟨op, hop, shift, keeps, ordered⟩
  · rintro ⟨op, hop, shift, keeps, ordered⟩
    exact ⟨_, ⟨op, hop, shift, keeps, rfl⟩, ordered⟩

/-- Points that all operations keep in place by the same lattice vectors have the same orders. -/
theorem sitePermutations_congr {s : Symmetry} {a b : Point}
    (same : ∀ op ∈ s.group.operations, ∀ shift, s.Keeps a op shift ↔ s.Keeps b op shift)
    (points : List Point) : s.sitePermutations a points = s.sitePermutations b points := by
  have kept : s.siteOperations a = s.siteOperations b := by
    refine List.filterMap_congr fun op hop => Option.ext fun kept => ?_
    rw [carrying?_eq_some, carrying?_eq_some]
    exact exists_congr fun shift => and_congr_left' (same op hop shift)
  rw [sitePermutations, sitePermutations, kept]

end CrystalModel.Symmetry
