import CrystalModel.Proofs.Binary.Blob
import Mathlib.Algebra.Order.BigOperators.GroupWithZero.List
import Mathlib.Algebra.Order.Ring.Nat
import Mathlib.Algebra.Ring.Int.Defs
import Mathlib.Data.List.Infix

/-! # Tables and their shapes

A header keeps of a shape only how many values a step along each dimension passes over. The
dimensions are regained from these skips by division, and an index finds its value by them. -/
namespace CrystalModel.Binary

/-- The indices of a table in the order of its values: the last part runs fastest. -/
def indices : List Nat → List (List Nat)
  | [] => [[]]
  | d :: rest => (List.range d).flatMap fun i => (indices rest).map (i :: ·)

def strides : List Nat → List Nat
  | [] => []
  | _ :: rest => rest.prod :: strides rest

/-- Dimensions of which a header keeps everything. Only the first of them may be zero. -/
structure Shape (dimensions : List Nat) : Prop where
  nonempty : dimensions ≠ []
  rank : dimensions.length < 2 ^ 31
  inner : ∀ d ∈ dimensions.tail, 0 < d
  suffixes : ∀ part, part <:+ dimensions → part.prod < 2 ^ 31

def Header.offset (h : Header) (index : List Nat) : Int :=
  (List.zipWith (fun (part : Nat) (skip : Int32) => (part : Int) * skip.toInt) index
    (h.indexSkips ++ [1])).sum

variable {dimensions index : List Nat}

@[simp] theorem indices_length (dimensions : List Nat) :
    (indices dimensions).length = dimensions.prod := by
  induction dimensions with
  | nil => rfl
  | cons d rest ih => simp [indices, List.length_flatMap, ih]

theorem indices_getElem? (inside : List.Forall₂ (· < ·) index dimensions) :
    (indices dimensions)[(List.zipWith (· * ·) index (strides dimensions)).sum]? = some index := by
  induction inside with
  | nil => rfl
  | @cons i d index rest below _ ih =>
    have first : (List.range d)[i]? = some i := List.getElem?_range below
    have later : ((indices rest).map (i :: ·))[(List.zipWith (· * ·) index (strides rest)).sum]? =
        some (i :: index) := by
      rw [List.getElem?_map, ih, Option.map_some]
    have passed : (((List.range d).take i).flatMap
        fun i => (indices rest).map (i :: ·)).length = i * rest.prod := by
      rw [List.take_range, Nat.min_eq_left (Nat.le_of_lt below)]
      simp [List.length_flatMap]
    have found := getElem?_flatMap_part (f := fun i => (indices rest).map (i :: ·)) first later
    rw [passed] at found
    exact found

/-- Every part of the dimensions from some place on has less than `2 ^ 31` elements. -/
def Small (dimensions : List Nat) : Prop := ∀ part, part <:+ dimensions → part.prod < 2 ^ 31

theorem Small.tail {d : Nat} (small : Small (d :: dimensions)) : Small dimensions :=
  fun part h => small part (h.trans (List.suffix_cons d dimensions))

theorem Small.product_eq (small : Small dimensions) :
    Blob.product dimensions = dimensions.prod := by
  have whole := small dimensions (List.suffix_refl _)
  rw [Blob.product, ← List.prod_eq_foldl, Nat.mod_eq_of_lt]
  exact Nat.lt_trans whole (by decide)

theorem Small.skips_append (small : Small dimensions) (nonempty : dimensions ≠ []) :
    Blob.skips dimensions ++ [1] = (strides dimensions).map Int32.ofNat := by
  induction dimensions with
  | nil => exact absurd rfl nonempty
  | cons d rest ih =>
    cases rest with
    | nil => rfl
    | cons e rest =>
      have later := ih small.tail (List.cons_ne_nil e rest)
      rw [Blob.skips, List.cons_append, later, small.tail.product_eq, ← List.map_cons]
      rfl

theorem Small.stride_lt (small : Small dimensions) :
    ∀ stride ∈ strides dimensions, stride < 2 ^ 31 := by
  induction dimensions with
  | nil => simp [strides]
  | cons d rest ih =>
    intro stride h
    rcases List.mem_cons.mp h with rfl | h
    · exact small.tail rest (List.suffix_refl _)
    · exact ih small.tail stride h

theorem weighted_sum {weights : List Nat} (small : ∀ w ∈ weights, w < 2 ^ 31) (index : List Nat) :
    (List.zipWith (fun (part : Nat) (skip : Int32) => (part : Int) * skip.toInt) index
      (weights.map Int32.ofNat)).sum = (List.zipWith (· * ·) index weights).sum := by
  induction weights generalizing index with
  | nil => simp
  | cons w weights ih =>
    obtain ⟨first, others⟩ := List.forall_mem_cons.mp small
    cases index with
    | nil => rfl
    | cons i index =>
      simp only [List.map_cons, List.zipWith_cons_cons, List.sum_cons, ih others,
        Int32.toInt_ofNat_of_lt first, Int.natCast_add, Int.natCast_mul]

theorem Small.offset_eq {h : Header} (small : Small dimensions) (nonempty : dimensions ≠ [])
    (skips : h.indexSkips = Blob.skips dimensions) (index : List Nat) :
    h.offset index = (List.zipWith (· * ·) index (strides dimensions)).sum := by
  rw [Header.offset, skips, small.skips_append nonempty, weighted_sum small.stride_lt]

/-! ## Dimensions from skips -/

/-- The dimensions of so many values that are passed over by so many along each dimension. -/
def regained : Nat → List Nat → List Nat
  | count, [] => [count]
  | count, skip :: skips => count / skip :: regained skip skips

theorem Blob.dimensions_eq (b : Blob) : b.dimensions =
    regained b.header.count.toInt.toNat (b.header.indexSkips.map (·.toInt.toNat)) := by
  unfold Blob.dimensions
  simp only
  generalize b.header.count.toInt.toNat = count
  generalize b.header.indexSkips.map (·.toInt.toNat) = skips
  induction skips generalizing count with
  | nil => rfl
  | cons skip skips ih =>
    rw [regained, ← ih skip]
    cases skips with
    | nil => rfl
    | cons next later =>
      rw [List.getLast?_cons_cons, List.getLast?_eq_some_getLast (List.cons_ne_nil next later)]
      rfl

theorem Small.regained_skips (small : Small dimensions) (nonempty : dimensions ≠ [])
    (inner : ∀ d ∈ dimensions.tail, 0 < d) :
    regained dimensions.prod ((Blob.skips dimensions).map (·.toInt.toNat)) = dimensions := by
  induction dimensions with
  | nil => exact absurd rfl nonempty
  | cons d rest ih =>
    cases rest with
    | nil => simp [Blob.skips, regained]
    | cons e rest =>
      have positive : 0 < (e :: rest).prod := List.prod_pos inner
      have below := small.tail _ (List.suffix_refl _)
      have later := ih small.tail (List.cons_ne_nil e rest)
        fun x hx => inner x (List.mem_cons_of_mem e hx)
      rw [Blob.skips, List.map_cons, small.tail.product_eq, Int32.toInt_ofNat_of_lt below,
        Int.toNat_natCast, regained, later, List.prod_cons (a := d), Nat.mul_div_cancel _ positive]

/-! ## Blobs of tables -/

namespace Blob

variable {α : Type} {c : Codec α} {kind : BlobType} {values : List α} {b : Blob}

@[simp] theorem skips_length (dimensions : List Nat) :
    (skips dimensions).length = dimensions.length - 1 := by
  induction dimensions with
  | nil => rfl
  | cons d rest ih =>
    cases rest with
    | nil => rfl
    | cons e rest =>
      rw [skips, List.length_cons, ih]
      rfl

theorem ofTable_ok_iff : ofTable c kind dimensions values = .ok b ↔
    dimensions ≠ [] ∧ product dimensions = values.length ∧
      b = ⟨⟨kind, Int32.ofNat c.width, Int32.ofNat dimensions.length, Int32.ofNat values.length,
        skips dimensions⟩, values.flatMap c.write⟩ := by
  unfold ofTable
  simp only
  split
  · next refused =>
    rw [List.isEmpty_iff] at refused
    constructor
    · intro h
      cases h
    · rintro ⟨nonempty, same, _⟩
      exact absurd refused (not_or.mpr ⟨nonempty, fun differ => differ same⟩)
  · next accepted =>
    rw [List.isEmpty_iff, not_or, not_not] at accepted
    rw [Except.ok.injEq, accepted.2, eq_comm]
    exact ⟨fun same => ⟨accepted.1, rfl, same⟩, fun h => h.2.2⟩

theorem ofTable_otherLength (other : values.length ≠ product dimensions) :
    ofTable c kind dimensions values =
      .error (.lengthMismatch (product dimensions) values.length) :=
  if_pos (Or.inr other.symm)

theorem wellFormed_of_ofTable (h : ofTable c kind dimensions values = .ok b) (lawful : c.Lawful)
    (pos : 0 < c.width) (narrow : c.width < 2 ^ 31) (rank : dimensions.length < 2 ^ 31)
    (few : values.length < 2 ^ 31) : b.WellFormed := by
  obtain ⟨nonempty, _, rfl⟩ := ofTable_ok_iff.mp h
  have ranked : dimensions.length = (skips dimensions).length + 1 := by
    have := List.length_pos_of_ne_nil nonempty
    have := skips_length dimensions
    omega
  rw [ranked] at rank ⊢
  exact wellFormed_of_row lawful pos narrow few kind (skips dimensions) rank

/-- The blob of a table has everything of it: it reads back as itself, gives the values in their
order and the dimensions, and its skips lead from an index to the value of the index. -/
structure Keeps (b : Blob) (c : Codec α) (kind : BlobType) (dimensions : List Nat)
    (values : List α) : Prop where
  sameKind : b.kind = kind
  reread : ofBytes b.toBytes = .ok b
  content : b.values c = .ok values
  shape : b.dimensions = dimensions
  located : ∀ index, List.Forall₂ (· < ·) index dimensions → ∃ (place : Nat) (value : α),
    b.header.offset index = place ∧
      ((indices dimensions).zip values)[place]? = some (index, value)

/-- Tables of plain values keep their shape and their values, and a list of values that does not
fill the shape is refused. -/
theorem tables_kept (lawful : c.Lawful) (pos : 0 < c.width) (narrow : c.width < 2 ^ 31)
    (shape : Shape dimensions) (kind : BlobType) (values : List α) :
    (values.length = dimensions.prod → ∃ b, ofTable c kind dimensions values = .ok b ∧
      b.Keeps c kind dimensions values) ∧
    (values.length ≠ dimensions.prod → ofTable c kind dimensions values =
      .error (.lengthMismatch dimensions.prod values.length)) := by
  have small : Small dimensions := shape.suffixes
  have product := small.product_eq
  refine ⟨fun full => ?_, fun other => product ▸ ofTable_otherLength (product ▸ other)⟩
  have few : values.length < 2 ^ 31 := full ▸ small dimensions (List.suffix_refl _)
  obtain ⟨b, made⟩ : ∃ b, ofTable c kind dimensions values = .ok b :=
    ⟨_, ofTable_ok_iff.mpr ⟨shape.nonempty, product.trans full.symm, rfl⟩⟩
  have wellFormed := wellFormed_of_ofTable made lawful pos narrow shape.rank few
  obtain ⟨_, _, rfl⟩ := ofTable_ok_iff.mp made
  refine ⟨_, made, rfl, ofBytes_ok_iff.mpr ⟨wellFormed, rfl⟩, ?_, ?_, fun index inside => ?_⟩
  · exact values_of_row lawful pos (Int32.toInt_ofNat_of_lt narrow) rfl
  · rw [dimensions_eq]
    simp only [Int32.toInt_ofNat_of_lt few, Int.toNat_natCast]
    rw [full, small.regained_skips shape.nonempty shape.inner]
  · have found := indices_getElem? inside
    have within := (List.getElem?_eq_some_iff.mp found).1
    rw [indices_length, ← full] at within
    exact ⟨_, _, small.offset_eq shape.nonempty rfl index,
      getElem?_zip_of found (List.getElem?_eq_getElem within)⟩

theorem box_kept : ∃ b,
    ofTable Codec.int32 .jumpAssign [2, 3, 4] ((List.range 24).map Int32.ofNat) = .ok b ∧
    b.Keeps Codec.int32 .jumpAssign [2, 3, 4] ((List.range 24).map Int32.ofNat) := by
  have products : ∀ part ∈ [2, 3, 4].tails, part.prod < 2 ^ 31 := by decide
  have shape : Shape [2, 3, 4] :=
    ⟨by decide, by decide, by decide, fun part h => products part ((List.mem_tails _ _).mpr h)⟩
  exact (tables_kept Codec.lawful_int32 (by decide) (by decide) shape .jumpAssign _).1 rfl

end Blob

end CrystalModel.Binary
