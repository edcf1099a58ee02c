import Mathlib.Data.List.Forall2
import Mathlib.Data.List.Basic

/-! # Places of elements

Where an element is found after its list was appended to, filtered, flattened or changed, and what
stands at the same place of an aligned list. -/
namespace CrystalModel

variable {α β : Type}

theorem getElem?_append_of_some {xs ys : List α} {i : Nat} {x : α} (h : xs[i]? = some x) :
    (xs ++ ys)[i]? = some x := by
  rw [List.getElem?_append_left (List.getElem?_eq_some_iff.mp h).1, h]

theorem pairwise_concat {R : α → α → Prop} {xs : List α} {x : α} (before : xs.Pairwise R)
    (last : ∀ a ∈ xs, R a x) : (xs ++ [x]).Pairwise R := by
  refine List.pairwise_append.mpr ⟨before, List.pairwise_singleton _ _, ?_⟩
  intro a ha b hb
  rw [List.mem_singleton.mp hb]
  exact last a ha

theorem getElem?_appended {xs ys : List α} {i : Nat} (h : i ∈ List.range' xs.length ys.length) :
    ∃ (k : Nat) (y : α), ys[k]? = some y ∧ (xs ++ ys)[i]? = some y := by
  rw [List.mem_range'_1] at h
  have inside : i - xs.length < ys.length := by omega
  have found : ys[i - xs.length]? = some ys[i - xs.length] := List.getElem?_eq_getElem inside
  refine ⟨i - xs.length, ys[i - xs.length], found, ?_⟩
  rw [List.getElem?_append_right h.1, found]

/-- In a list that is numbered from zero on an element stands at the place that is its number. -/
theorem place_of_numbered {number : α → Nat} {xs : List α}
    (numbered : xs.map number = List.range xs.length) {k : Nat} {x : α} (hx : xs[k]? = some x) :
    number x = k := by
  have here : (xs.map number)[k]? = some (number x) := by
    rw [List.getElem?_map, hx, Option.map_some]
  rw [numbered, List.getElem?_range (List.getElem?_eq_some_iff.mp hx).1, Option.some.injEq] at here
  exact here.symm

theorem getElem?_filterMap_of_isSome {f : α → Option β} {xs : List α}
    (defined : ∀ x ∈ xs, ∃ y, f x = some y) (i : Nat) : (xs.filterMap f)[i]? = xs[i]?.bind f := by
  induction xs generalizing i with
  | nil => rfl
  | cons x rest ih =>
    obtain ⟨y, hy⟩ := defined x List.mem_cons_self
    have keep := ih fun z hz => defined z (List.mem_cons_of_mem x hz)
    cases i with
    | zero => simp [hy]
    | succ i => simpa [hy] using keep i

theorem filterMap_eq_map_range {f : α → Option β} {xs : List α} {g : Nat → β}
    (each : ∀ k x, xs[k]? = some x → f x = some (g k)) :
    xs.filterMap f = (List.range xs.length).map g := by
  have defined (x : α) (hx : x ∈ xs) : ∃ y, f x = some y := by
    obtain ⟨k, hk⟩ := List.mem_iff_getElem?.mp hx
    exact ⟨g k, each k x hk⟩
  refine List.ext_getElem? fun k => ?_
  rw [getElem?_filterMap_of_isSome defined, List.getElem?_map]
  cases hk : xs[k]? with
  | none =>
    rw [List.getElem?_eq_none (by simpa using hk)]
    rfl
  | some x =>
    rw [List.getElem?_range (List.getElem?_eq_some_iff.mp hk).1]
    exact each k x hk

theorem mem_places {xs : List α} {p : α → Prop} {f : α × Nat → Option Nat}
    (keep : ∀ x place n, f (x, place) = some n ↔ p x ∧ place = n) {n : Nat} :
    n ∈ xs.zipIdx.filterMap f ↔ ∃ x, xs[n]? = some x ∧ p x := by
  simp only [List.mem_filterMap, Prod.exists, List.mem_zipIdx_iff_getElem?, keep]
  constructor
  · rintro ⟨x, _, hx, kept, rfl⟩
    exact ⟨x, hx, kept⟩
  · rintro ⟨x, hx, kept⟩
    exact ⟨x, n, hx, kept, rfl⟩

theorem zipIdx_ascending (xs : List α) : xs.zipIdx.Pairwise fun a b => a.2 < b.2 := by
  rw [List.pairwise_iff_getElem]
  intro i j hi hj hij
  simpa using hij

theorem places_nodup {xs : List α} {p : α → Prop} {f : α × Nat → Option Nat}
    (keep : ∀ x place n, f (x, place) = some n ↔ p x ∧ place = n) :
    (xs.zipIdx.filterMap f).Nodup := by
  refine List.Pairwise.filterMap _ ?_ (zipIdx_ascending xs)
  rintro ⟨x, a⟩ ⟨y, b⟩ less m hm n hn
  have : a < b := less
  have := ((keep x a m).mp hm).2
  have := ((keep y b n).mp hn).2
  omega

theorem places_all {xs : List α} {p : α → Prop} {f : α × Nat → Option Nat}
    (keep : ∀ x place n, f (x, place) = some n ↔ p x ∧ place = n) (holds : ∀ x ∈ xs, p x)
    (start : Nat) : (xs.zipIdx start).filterMap f = List.range' start xs.length := by
  induction xs generalizing start with
  | nil => rfl
  | cons x rest ih =>
    have kept : f (x, start) = some start :=
      (keep x start start).mpr ⟨holds x List.mem_cons_self, rfl⟩
    rw [List.zipIdx_cons, List.filterMap_cons_some kept, List.length_cons, List.range'_succ,
      ih fun y hy => holds y (List.mem_cons_of_mem x hy)]

theorem places_none {xs : List α} {p : α → Prop} {f : α × Nat → Option Nat}
    (keep : ∀ x place n, f (x, place) = some n ↔ p x ∧ place = n) (none : ∀ x ∈ xs, ¬p x)
    (start : Nat) : (xs.zipIdx start).filterMap f = [] := by
  rw [List.filterMap_eq_nil_iff]
  rintro ⟨x, place⟩ hx
  rw [Option.eq_none_iff_forall_ne_some]
  intro n kept
  exact none x (List.fst_mem_of_mem_zipIdx hx) ((keep x place n).mp kept).1

theorem idxOf?_of_nodup [BEq α] [LawfulBEq α] {xs : List α} {i : Nat} {x : α} (nodup : xs.Nodup)
    (hx : xs[i]? = some x) : xs.idxOf? x = some i := by
  obtain ⟨inside, rfl⟩ := List.getElem?_eq_some_iff.mp hx
  refine List.idxOf?_eq_some_iff.mpr ⟨inside, rfl, ?_⟩
  intro j hj same
  exact List.pairwise_iff_getElem.mp nodup j i (by omega) inside hj same

theorem getElem?_of_idxOf? [BEq α] [LawfulBEq α] {xs : List α} {i : Nat} {x : α}
    (h : xs.idxOf? x = some i) : xs[i]? = some x := by
  obtain ⟨inside, same, _⟩ := List.idxOf?_eq_some_iff.mp h
  exact List.getElem?_eq_some_iff.mpr ⟨inside, same⟩

theorem mem_of_idxOf? [BEq α] [LawfulBEq α] {xs : List α} {i : Nat} {x : α}
    (h : xs.idxOf? x = some i) : x ∈ xs :=
  List.mem_of_getElem? (getElem?_of_idxOf? h)

theorem idxOf?_lt_iff {xs : List Nat} (ascending : xs.Pairwise (· < ·)) {a b i j : Nat}
    (ha : xs.idxOf? a = some i) (hb : xs.idxOf? b = some j) : i < j ↔ a < b := by
  obtain ⟨hi, atI⟩ := List.getElem?_eq_some_iff.mp (getElem?_of_idxOf? ha)
  obtain ⟨hj, atJ⟩ := List.getElem?_eq_some_iff.mp (getElem?_of_idxOf? hb)
  have below := List.pairwise_iff_getElem.mp ascending
  constructor
  · intro before
    have := below i j hi hj before
    rwa [atI, atJ] at this
  · intro less
    rcases Nat.lt_trichotomy i j with before | rfl | after
    · exact before
    · exact absurd (atI.symm.trans atJ) (Nat.ne_of_lt less)
    · have := below j i hj hi after
      omega

theorem idxOf?_iff_eq [BEq α] [LawfulBEq α] {xs : List α} {a b : α} {i : Nat}
    (ha : xs.idxOf? a = some i) : xs.idxOf? b = some i ↔ b = a := by
  refine ⟨fun hb => ?_, fun same => same ▸ ha⟩
  exact Option.some.inj ((getElem?_of_idxOf? hb).symm.trans (getElem?_of_idxOf? ha))

theorem mem_iff_idxOf? [BEq α] [LawfulBEq α] {xs : List α} {a : α} :
    a ∈ xs ↔ ∃ i, i < xs.length ∧ xs.idxOf? a = some i := by
  constructor
  · intro h
    cases found : xs.idxOf? a with
    | none => exact absurd h (List.idxOf?_eq_none_iff.mp found)
    | some i => exact ⟨i, (List.getElem?_eq_some_iff.mp (getElem?_of_idxOf? found)).1, rfl⟩
  · rintro ⟨i, _, found⟩
    exact mem_of_idxOf? found

theorem not_nodup_map_iff {f : α → β} {xs : List α} :
    ¬(xs.map f).Nodup ↔ ∃ a b, [a, b].Sublist xs ∧ f a = f b := by
  rw [List.Nodup, List.pairwise_map, List.pairwise_iff_forall_sublist]
  push Not
  exact Iff.rfl

theorem getElem?_flatMap_part {xs : List α} {f : α → List β} {k j : Nat} {x : α}
    {y : β} (hk : xs[k]? = some x) (hj : (f x)[j]? = some y) :
    (xs.flatMap f)[((xs.take k).flatMap f).length + j]? = some y := by
  obtain ⟨inside, rfl⟩ := List.getElem?_eq_some_iff.mp hk
  have hjlt := (List.getElem?_eq_some_iff.mp hj).1
  have split : xs.flatMap f =
      (xs.take k).flatMap f ++ (f xs[k] ++ (xs.drop (k + 1)).flatMap f) := by
    conv_lhs => rw [← List.take_append_drop k xs]
    rw [List.flatMap_append, List.drop_eq_getElem_cons inside, List.flatMap_cons]
  rw [split, List.getElem?_append_right (by omega), Nat.add_sub_cancel_left,
    List.getElem?_append_left hjlt, hj]

/-- Every element of flattened parts is found in one of them. -/
theorem exists_part {xs : List α} {f : α → List β} {i : Nat} {y : β}
    (h : (xs.flatMap f)[i]? = some y) : ∃ k x j, xs[k]? = some x ∧ (f x)[j]? = some y ∧
      i = ((xs.take k).flatMap f).length + j := by
  induction xs generalizing i with
  | nil => cases h
  | cons x rest ih =>
    rw [List.flatMap_cons] at h
    by_cases within : i < (f x).length
    · rw [List.getElem?_append_left within] at h
      exact ⟨0, x, i, rfl, h, by simp⟩
    · rw [List.getElem?_append_right (by omega)] at h
      obtain ⟨k, z, j, hz, hy, place⟩ := ih h
      refine ⟨k + 1, z, j, hz, hy, ?_⟩
      rw [List.take_succ_cons, List.flatMap_cons, List.length_append]
      omega

theorem getElem?_append_cases {xs ys : List α} {i : Nat} {x : α} (h : (xs ++ ys)[i]? = some x) :
    xs[i]? = some x ∨ ∃ j, ys[j]? = some x ∧ i = xs.length + j := by
  by_cases within : i < xs.length
  · rw [List.getElem?_append_left within] at h
    exact Or.inl h
  · rw [List.getElem?_append_right (by omega)] at h
    exact Or.inr ⟨i - xs.length, h, by omega⟩

theorem getElem?_modified {xs : List α} {f : α → α} {k e : Nat} {x : α}
    (h : (xs.modify k f)[e]? = some x) :
    ∃ old, xs[e]? = some old ∧ x = if k = e then f old else old := by
  rw [List.getElem?_modify] at h
  obtain ⟨old, hold, rfl⟩ := Option.map_eq_some_iff.mp h
  exact ⟨old, hold, rfl⟩

theorem map_modify_eq {xs : List α} {f : α → α} {g : α → β} {k : Nat}
    (h : ∀ x, g (f x) = g x) : (xs.modify k f).map g = xs.map g := by
  refine List.ext_getElem? fun e => ?_
  rw [List.getElem?_map, List.getElem?_map, List.getElem?_modify]
  cases xs[e]? with
  | none => rfl
  | some x => by_cases hk : k = e <;> simp [hk, h]

section Aligned

variable {R : α → β → Prop} {xs : List α} {ys : List β}

theorem aligned_left (h : List.Forall₂ R xs ys) {i : Nat} {x : α} (hx : xs[i]? = some x) :
    ∃ y, ys[i]? = some y ∧ R x y := by
  obtain ⟨hi, rfl⟩ := List.getElem?_eq_some_iff.mp hx
  have hi' : i < ys.length := h.length_eq ▸ hi
  exact ⟨ys[i], List.getElem?_eq_getElem hi', (List.forall₂_iff_get.mp h).2 i hi hi'⟩

theorem aligned_right (h : List.Forall₂ R xs ys) {i : Nat} {y : β} (hy : ys[i]? = some y) :
    ∃ x, xs[i]? = some x ∧ R x y := by
  obtain ⟨x, hx, hR⟩ := aligned_left h.flip hy
  exact ⟨x, hx, hR⟩

theorem aligned_mem_left (h : List.Forall₂ R xs ys) {x : α} (hx : x ∈ xs) : ∃ y ∈ ys, R x y := by
  obtain ⟨i, hi⟩ := List.mem_iff_getElem?.mp hx
  obtain ⟨y, hy, related⟩ := aligned_left h hi
  exact ⟨y, List.mem_of_getElem? hy, related⟩

theorem aligned_mem_right (h : List.Forall₂ R xs ys) {y : β} (hy : y ∈ ys) : ∃ x ∈ xs, R x y := by
  obtain ⟨x, hx, related⟩ := aligned_mem_left h.flip hy
  exact ⟨x, hx, related⟩

theorem getElem?_zip_of {i : Nat} {x : α} {y : β} (hx : xs[i]? = some x) (hy : ys[i]? = some y) :
    (xs.zip ys)[i]? = some (x, y) :=
  List.getElem?_zip_eq_some.mpr ⟨hx, hy⟩

theorem aligned_imp {S : α → β → Prop} (h : List.Forall₂ R xs ys)
    (imp : ∀ x ∈ xs, ∀ y ∈ ys, R x y → S x y) : List.Forall₂ S xs ys := by
  induction h with
  | nil => exact .nil
  | cons hxy _ ih =>
    refine .cons (imp _ List.mem_cons_self _ List.mem_cons_self hxy) (ih ?_)
    intro x hx y hy
    exact imp x (List.mem_cons_of_mem _ hx) y (List.mem_cons_of_mem _ hy)

theorem aligned_trans {γ : Type} {S : β → γ → Prop} {T : α → γ → Prop} {zs : List γ}
    (first : List.Forall₂ R xs ys) (second : List.Forall₂ S ys zs)
    (both : ∀ x y z, R x y → S y z → T x z) : List.Forall₂ T xs zs := by
  induction first generalizing zs with
  | nil =>
    cases second
    exact .nil
  | cons hxy _ ih =>
    cases second with
    | cons hyz rest => exact .cons (both _ _ _ hxy hyz) (ih rest)

theorem aligned_filterMap {f : α → Option β} (full : (xs.filterMap f).length = xs.length) :
    List.Forall₂ (fun x y => f x = some y) xs (xs.filterMap f) := by
  have defined := List.filterMap_length_eq_length.mp full
  clear full
  induction xs with
  | nil => exact .nil
  | cons x rest ih =>
    obtain ⟨y, hy⟩ := Option.isSome_iff_exists.mp (defined x List.mem_cons_self)
    rw [List.filterMap_cons_some hy]
    exact .cons hy (ih fun z hz => defined z (List.mem_cons_of_mem x hz))

theorem map_eq_of_aligned {γ : Type} {f : α → γ} {g : β → γ}
    (h : List.Forall₂ (fun x y => f x = g y) xs ys) : xs.map f = ys.map g := by
  induction h with
  | nil => rfl
  | cons same _ ih => rw [List.map_cons, List.map_cons, same, ih]

theorem filterMap_eq_of_aligned {γ : Type} {f : α → Option γ} {g : β → γ}
    (h : List.Forall₂ (fun x y => f x = some (g y)) xs ys) : xs.filterMap f = ys.map g := by
  induction h with
  | nil => rfl
  | cons same _ ih => rw [List.filterMap_cons_some same, List.map_cons, ih]

end Aligned

end CrystalModel
