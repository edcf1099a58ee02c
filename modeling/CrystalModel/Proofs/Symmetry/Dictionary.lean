import CrystalModel.Proofs.Places
import CrystalModel.Symmetry.Wyckoff
import Mathlib.Data.List.Induction
import Mathlib.Data.List.Nodup
import Mathlib.Data.List.Perm.Basic

/-! # How a dictionary shares out a group

Every operation of a group leads to one image of a position. The tolerance does not sort points
into classes, so an image is what its first operation makes of the source, and the others only come
close to it. -/
namespace CrystalModel

theorem moveFront_perm {α : Type} (p : α → Bool) (xs : List α) : (moveFront p xs).Perm xs := by
  unfold moveFront
  cases found : xs.find? p with
  | none => exact .refl xs
  | some x =>
    obtain ⟨hx, front, rest, rfl, before⟩ := List.find?_eq_some_iff_append.mp found
    have passed : ∀ b ∈ front, ¬p b = true := by
      intro b hb
      simpa using before b hb
    rw [List.eraseP_append_right _ passed, List.eraseP_cons_of_pos hx]
    exact List.perm_middle.symm

theorem moveFront_head? {α : Type} {p : α → Bool} {xs : List α} (h : ∃ x ∈ xs, p x = true) :
    ∃ first, (moveFront p xs).head? = some first ∧ p first = true := by
  obtain ⟨first, found⟩ := Option.isSome_iff_exists.mp (List.find?_isSome.mpr h)
  unfold moveFront
  rw [found]
  exact ⟨first, rfl, List.find?_some found⟩

namespace Image

/-- Images are discovered in the order of the first operations that lead to them. -/
def DiscoveredBefore (a b : Image) : Prop :=
  ∃ m n, a.operations.head? = some m ∧ b.operations.head? = some n ∧ m < n

/-- The image is what its first operation makes of the source; what the others make of it is close.
`under` says what each operation makes of the source. -/
def LedTo (t : Tolerance) (under : Nat → Option Point) (image : Image) : Prop :=
  ∃ first others, image.operations = first :: others ∧ under first = some image.position ∧
    ∀ n ∈ others, ∃ v, under n = some v ∧ t.closePoints image.position v = true

theorem LedTo.ne_nil {t : Tolerance} {under : Nat → Option Point} {image : Image}
    (h : image.LedTo t under) : image.operations ≠ [] := by
  obtain ⟨first, others, same, _⟩ := h
  rw [same]
  exact List.cons_ne_nil first others

/-- Later operations do not change what an image was discovered as. -/
def discovery (image : Image) : Option Nat × Point := (image.operations.head?, image.position)

def joined (image : Image) (n : Nat) : Image :=
  { image with operations := image.operations ++ [n] }

theorem discovery_joined {image : Image} (h : image.operations ≠ []) (n : Nat) :
    (image.joined n).discovery = image.discovery := by
  obtain ⟨first, others, same⟩ := List.exists_cons_of_ne_nil h
  rw [joined, discovery, discovery, same]
  rfl

end Image

variable {t : Tolerance} {under : Nat → Option Point} {n : Nat} {v : Point} {images : List Image}

theorem addImage_cases (t : Tolerance) (v : Point) (n : Nat) (images : List Image) :
    (∃ front image rest, images = front ++ image :: rest ∧
      t.closePoints image.position v = true ∧
      addImage t v n images = front ++ image.joined n :: rest) ∨
    ((∀ image ∈ images, t.closePoints image.position v = false) ∧
      addImage t v n images = images ++ [⟨v, [n]⟩]) := by
  induction images with
  | nil => exact Or.inr ⟨by simp, rfl⟩
  | cons image rest ih =>
    by_cases near : t.closePoints image.position v = true
    · refine Or.inl ⟨[], image, rest, rfl, near, ?_⟩
      rw [addImage, if_pos near]
      rfl
    · have step : addImage t v n (image :: rest) = image :: addImage t v n rest := by
        rw [addImage, if_neg near]
      rcases ih with ⟨front, other, last, split, found, added⟩ | ⟨far, added⟩
      · refine Or.inl ⟨image :: front, other, last, ?_, found, ?_⟩
        · rw [split, List.cons_append]
        · rw [step, added, List.cons_append]
      · refine Or.inr ⟨?_, ?_⟩
        · intro x hx
          rcases List.mem_cons.mp hx with rfl | later
          · exact Bool.eq_false_iff.mpr near
          · exact far x later
        · rw [step, added, List.cons_append]

/-- What the images of the first `n` operations are like. -/
structure Gathered (t : Tolerance) (under : Nat → Option Point) (n : Nat)
    (images : List Image) : Prop where
  covers : (images.flatMap (·.operations)).Perm (List.range n)
  ascending : ∀ image ∈ images, image.operations.Pairwise (· < ·)
  led : ∀ image ∈ images, image.LedTo t under
  apart : (images.map (·.discovery)).Pairwise fun a b =>
    (∃ m k, a.1 = some m ∧ b.1 = some k ∧ m < k) ∧ t.closePoints a.2 b.2 = false

namespace Gathered

theorem empty : Gathered t under 0 [] := ⟨.refl _, by simp, by simp, .nil⟩

theorem below (h : Gathered t under n images) {image : Image} (hi : image ∈ images) {k : Nat}
    (hk : k ∈ image.operations) : k < n :=
  List.mem_range.mp (h.covers.subset (List.mem_flatMap.mpr ⟨image, hi, hk⟩))

theorem join {front rest : List Image} {image : Image}
    (h : Gathered t under n (front ++ image :: rest)) (made : under n = some v)
    (near : t.closePoints image.position v = true) :
    Gathered t under (n + 1) (front ++ image.joined n :: rest) := by
  have among : image ∈ front ++ image :: rest := by simp
  have led := h.led image among
  have kept : ∀ other ∈ front ++ image.joined n :: rest,
      other = image.joined n ∨ other ∈ front ++ image :: rest := by
    intro other hother
    rcases List.mem_append.mp hother with before | hother
    · exact Or.inr (List.mem_append_left _ before)
    · rcases List.mem_cons.mp hother with here | behind
      · exact Or.inl here
      · exact Or.inr (List.mem_append_right _ (List.mem_cons_of_mem image behind))
  constructor
  · rw [List.range_succ]
    refine List.Perm.trans ?_ (h.covers.append_right [n])
    simp only [List.flatMap_append, List.flatMap_cons, Image.joined, List.append_assoc]
    refine List.Perm.append_left _ (List.Perm.append_left _ ?_)
    exact List.perm_append_comm
  · intro other hother
    rcases kept other hother with rfl | old
    · exact pairwise_concat (h.ascending image among) fun k hk => h.below among hk
    · exact h.ascending other old
  · intro other hother
    rcases kept other hother with rfl | old
    · obtain ⟨first, others, same, source, close⟩ := led
      refine ⟨first, others ++ [n], ?_, source, ?_⟩
      · rw [Image.joined, same, List.cons_append]
      · intro k hk
        rcases List.mem_append.mp hk with earlier | last
        · exact close k earlier
        · rw [List.mem_singleton.mp last]
          exact ⟨v, made, near⟩
    · exact h.led other old
  · have same : (front ++ image.joined n :: rest).map (·.discovery) =
        (front ++ image :: rest).map (·.discovery) := by
      rw [List.map_append, List.map_append, List.map_cons, List.map_cons,
        Image.discovery_joined led.ne_nil]
    rw [same]
    exact h.apart

theorem discover (h : Gathered t under n images) (made : under n = some v)
    (far : ∀ image ∈ images, t.closePoints image.position v = false) :
    Gathered t under (n + 1) (images ++ [⟨v, [n]⟩]) := by
  constructor
  · rw [List.range_succ, List.flatMap_append]
    exact h.covers.append_right [n]
  · intro image hi
    rcases List.mem_append.mp hi with old | new
    · exact h.ascending image old
    · rw [List.mem_singleton.mp new]
      exact List.pairwise_singleton _ _
  · intro image hi
    rcases List.mem_append.mp hi with old | new
    · exact h.led image old
    · rw [List.mem_singleton.mp new]
      exact ⟨n, [], rfl, made, by simp⟩
  · rw [List.map_append]
    refine pairwise_concat h.apart ?_
    intro key hkey
    obtain ⟨image, hi, rfl⟩ := List.mem_map.mp hkey
    obtain ⟨first, others, same, _⟩ := h.led image hi
    have before : first < n := h.below hi (by rw [same]; exact List.mem_cons_self)
    refine ⟨⟨first, n, ?_, rfl, before⟩, far image hi⟩
    rw [Image.discovery, same]
    rfl

theorem step (h : Gathered t under n images) (made : under n = some v) :
    Gathered t under (n + 1) (addImage t v n images) := by
  rcases addImage_cases t v n images with ⟨front, image, rest, split, near, added⟩ | ⟨far, added⟩
  · rw [added]
    rw [split] at h
    exact h.join made near
  · rw [added]
    exact h.discover made far

/-- Of two images one was discovered first, and the other is not close to it. -/
theorem not_close (h : Gathered t under n images) {a b : Image} (ha : a ∈ images)
    (hb : b ∈ images) (before : a.DiscoveredBefore b) :
    t.closePoints a.position b.position = false := by
  obtain ⟨m, k, hm, hk, less⟩ := before
  obtain ⟨i, hi, rfl⟩ := List.mem_iff_getElem.mp ha
  obtain ⟨j, hj, rfl⟩ := List.mem_iff_getElem.mp hb
  have apart := List.pairwise_iff_getElem.mp (List.pairwise_map.mp h.apart)
  rcases Nat.lt_trichotomy i j with first | same | second
  · exact (apart i j hi hj first).2
  · subst same
    rw [hm, Option.some.injEq] at hk
    omega
  · obtain ⟨⟨k', m', hk', hm', less'⟩, _⟩ := apart j i hj hi second
    rw [Image.discovery, hk, Option.some.injEq] at hk'
    rw [Image.discovery, hm, Option.some.injEq] at hm'
    omega

end Gathered

namespace Symmetry

def imageUnder (s : Symmetry) (source : Point) (n : Nat) : Option Point :=
  s.group.operations[n]?.map fun op => op.applyInCell s.tolerance source

def discovered (s : Symmetry) (source : Point) (operations : List Operation) : List Image :=
  operations.zipIdx.foldl (fun images (op, index) =>
    addImage s.tolerance (op.applyInCell s.tolerance source) index images) []

theorem discovered_concat (s : Symmetry) (source : Point) (operations : List Operation)
    (op : Operation) : s.discovered source (operations ++ [op]) =
      addImage s.tolerance (op.applyInCell s.tolerance source) operations.length
        (s.discovered source operations) := by
  rw [discovered, List.zipIdx_append, List.foldl_append, Nat.zero_add]
  rfl

theorem gathered_discovered (s : Symmetry) (source : Point) (operations : List Operation)
    (listed : operations <+: s.group.operations) :
    Gathered s.tolerance (s.imageUnder source) operations.length
      (s.discovered source operations) := by
  induction operations using List.reverseRecOn with
  | nil => exact .empty
  | append_singleton front op ih =>
    have made : s.imageUnder source front.length = some (op.applyInCell s.tolerance source) := by
      obtain ⟨rest, whole⟩ := listed
      rw [imageUnder, ← whole, getElem?_append_of_some List.getElem?_concat_length]
      rfl
    rw [discovered_concat, List.length_append]
    exact (ih ((List.prefix_append front [op]).trans listed)).step made

theorem dictionary_eq (s : Symmetry) (position : Point) : s.dictionary position =
    ⟨Fractional.trimPoint s.tolerance position, moveFront (fun image =>
        s.tolerance.closePoints image.position (Fractional.trimPoint s.tolerance position))
      (s.discovered (Fractional.trimPoint s.tolerance position) s.group.operations)⟩ := rfl

end Symmetry

/-- The images of a position share out the operations of the group. -/
structure Wyckoff.SharesOut (s : Symmetry) (w : Wyckoff) : Prop where
  ascending : ∀ image ∈ w.images, image.operations.Pairwise (· < ·)
  disjoint : w.images.Pairwise fun a b => a.operations.Disjoint b.operations
  complete : ∀ n, n < s.group.operations.length ↔ ∃ image ∈ w.images, n ∈ image.operations
  led : ∀ image ∈ w.images, image.LedTo s.tolerance (s.imageUnder w.source)
  apart : ∀ a ∈ w.images, ∀ b ∈ w.images, a.DiscoveredBefore b →
    s.tolerance.closePoints a.position b.position = false
  front : (∃ image ∈ w.images, s.tolerance.closePoints image.position w.source = true) →
    ∃ first, w.images.head? = some first ∧
      s.tolerance.closePoints first.position w.source = true

/-- Every operation of a group leads to exactly one image of a position, however close points are
related. -/
theorem Symmetry.dictionary_sharesOut (s : Symmetry) (position : Point) :
    (s.dictionary position).source = Fractional.trimPoint s.tolerance position ∧
      (s.dictionary position).SharesOut s := by
  rw [dictionary_eq]
  generalize Fractional.trimPoint s.tolerance position = source
  refine ⟨rfl, ?_⟩
  have gathered := s.gathered_discovered source s.group.operations List.prefix_rfl
  generalize s.discovered source s.group.operations = images at gathered ⊢
  have perm := moveFront_perm (fun image => s.tolerance.closePoints image.position source) images
  have old : ∀ {image}, image ∈ moveFront (fun image =>
      s.tolerance.closePoints image.position source) images → image ∈ images := perm.mem_iff.mp
  refine ⟨fun image hi => gathered.ascending image (old hi), ?_, ?_,
    fun image hi => gathered.led image (old hi),
    fun a ha b hb => gathered.not_close (old ha) (old hb), ?_⟩
  · have once : (images.flatMap (·.operations)).Nodup :=
      gathered.covers.nodup_iff.mpr List.nodup_range
    have shared := (perm.flatMap fun _ _ => .refl _).nodup_iff.mpr once
    exact (List.nodup_flatMap.mp shared).2
  · intro n
    rw [← List.mem_range, ← gathered.covers.mem_iff, List.mem_flatMap]
    simp only [perm.mem_iff]
  · intro ⟨image, hi, near⟩
    exact moveFront_head? ⟨image, old hi, near⟩

end CrystalModel
