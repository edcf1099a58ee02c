import CrystalModel.Proofs.Geometry.Encoder
import CrystalModel.Proofs.Places
import CrystalModel.Structure.Model
import Mathlib.Algebra.Group.Nat.Defs

/-! # Lattices without the positions of one site

When the positions of a site are given up, those behind them move up. Points that were encoded on
other sites keep their cells and their positions, which only have other numbers. -/
namespace CrystalModel

section Kept

variable {α β : Type} {xs : List α} {ys : List β} {q : β → Bool} {p : Nat} {y : β}

theorem countP_take_lt {p' : Nat} (hy : ys[p]? = some y) (kept : q y) (before : p < p') :
    (ys.take p).countP q < (ys.take p').countP q := by
  obtain ⟨inside, rfl⟩ := List.getElem?_eq_some_iff.mp hy
  have upTo : (ys.take (p + 1)).countP q = (ys.take p).countP q + 1 := by
    rw [List.take_add_one, hy, List.countP_append]
    simp [kept]
  have front : (ys.take (p + 1)).Sublist (ys.take p') :=
    (List.take_prefix_take_left before).sublist
  have := front.countP_le (p := q)
  omega

theorem getElem?_filter_kept (hy : ys[p]? = some y) (kept : q y) :
    (ys.filter q)[(ys.take p).countP q]? = some y := by
  induction ys generalizing p with
  | nil => simp at hy
  | cons first rest ih =>
    cases p with
    | zero =>
      obtain rfl : first = y := by simpa using hy
      simp [kept]
    | succ p =>
      have later := ih (p := p) (by simpa using hy)
      by_cases keep : q first <;> simp [keep, later]

theorem findIdx?_kept {P : α → Bool} (aligned : xs.length = ys.length)
    (found : xs.findIdx? P = some p) (hy : ys[p]? = some y) (kept : q y) :
    (((xs.zip ys).filter (q ·.2)).map (·.1)).findIdx? P = some ((ys.take p).countP q) := by
  induction xs generalizing ys p with
  | nil => cases found
  | cons x xs ih =>
    cases ys with
    | nil => cases aligned
    | cons first rest =>
      rw [List.findIdx?_cons] at found
      by_cases here : P x
      · rw [if_pos here, Option.some.injEq] at found
        subst found
        obtain rfl : first = y := by simpa using hy
        simp [kept, here, List.findIdx?_cons]
      · rw [if_neg here] at found
        obtain ⟨before, earlier, rfl⟩ := Option.map_eq_some_iff.mp found
        have later := ih (by simpa using aligned) earlier (by simpa using hy)
        by_cases keep : q first
        · simp [keep, here, List.findIdx?_cons, later]
        · simp [keep, later]

theorem findIdx?_kept_isSome_iff {P : α → Bool} :
    (((xs.zip ys).filter (q ·.2)).map (·.1)).findIdx? P ≠ none ↔
      ∃ (p : Nat) (x : α) (y : β), xs[p]? = some x ∧ ys[p]? = some y ∧ q y ∧ P x := by
  rw [← Option.isSome_iff_ne_none, List.findIdx?_isSome, List.any_eq_true]
  constructor
  · rintro ⟨x, hx, close⟩
    obtain ⟨z, hz, rfl⟩ := List.mem_map.mp hx
    obtain ⟨hz, kept⟩ := List.mem_filter.mp hz
    obtain ⟨p, hp⟩ := List.mem_iff_getElem?.mp hz
    obtain ⟨first, second⟩ := List.getElem?_zip_eq_some.mp hp
    exact ⟨p, z.1, z.2, first, second, kept, close⟩
  · rintro ⟨p, x, y, hx, hy, kept, close⟩
    have hz := List.mem_of_getElem? (getElem?_zip_of hx hy)
    exact ⟨x, List.mem_map.mpr ⟨(x, y), List.mem_filter.mpr ⟨hz, kept⟩, rfl⟩, close⟩

theorem kept_places (aligned : xs.length = ys.length) {x : α} :
    (∃ p : Nat, (((xs.zip ys).filter (q ·.2)).map (·.1))[p]? = some x ∧
      (ys.filter q)[p]? = some y) ↔ q y ∧ ∃ p : Nat, xs[p]? = some x ∧ ys[p]? = some y := by
  have second : ys.filter q = ((xs.zip ys).filter (q ·.2)).map (·.2) := by
    conv_lhs => rw [← List.map_snd_zip (Nat.le_of_eq aligned.symm)]
    rw [List.filter_map]
    rfl
  have found : ∀ zs : List (α × β), (∃ p : Nat, (zs.map (·.1))[p]? = some x ∧
      (zs.map (·.2))[p]? = some y) ↔ (x, y) ∈ zs := by
    intro zs
    rw [List.mem_iff_getElem?]
    refine exists_congr fun p => ?_
    rw [List.getElem?_map, List.getElem?_map]
    cases zs[p]? with
    | none => simp
    | some z => simp [Prod.ext_iff]
  rw [second, found, List.mem_filter, and_comm, List.mem_iff_getElem?]
  simp only [List.getElem?_zip_eq_some]

end Kept

/-- The number of a position once the positions of a site are given up. -/
def rankWithout (sites : List Nat) (gone p : Nat) : Nat := (sites.take p).countP (· != gone)

theorem rankWithout_le (sites : List Nat) (gone p : Nat) : rankWithout sites gone p ≤ p :=
  Nat.le_trans List.countP_le_length (List.length_take_le p sites)

namespace CrystalVector

def without (v : CrystalVector) (sites : List Nat) (gone : Nat) : CrystalVector :=
  { v with p := Int32.ofNat (rankWithout sites gone v.p.toInt.toNat) }

/-- The position is one of those that stay. -/
structure Stays (v : CrystalVector) (sites : List Nat) (gone : Nat) : Prop where
  number : Int32.ofNat v.p.toInt.toNat = v.p
  beside : ∃ site, sites[v.p.toInt.toNat]? = some site ∧ site ≠ gone

variable {sites : List Nat} {gone : Nat} {v w : CrystalVector}

theorem Stays.of_number {p site : Nat} (few : sites.length < 2 ^ 31) (hp : v.p = Int32.ofNat p)
    (hsite : sites[p]? = some site) (other : site ≠ gone) : v.Stays sites gone := by
  have inside := (List.getElem?_eq_some_iff.mp hsite).1
  have number : v.p.toInt.toNat = p := by
    rw [hp, Int32.toInt_ofNat_of_lt (by omega), Int.toNat_natCast]
  exact ⟨by rw [number, hp], site, by rw [number, hsite], other⟩

theorem Stays.shifted (h : v.Stays sites gone) (offset : CellOffset) :
    (v.shifted offset).Stays sites gone := ⟨h.number, h.beside⟩

theorem Stays.rank (few : sites.length < 2 ^ 31) (h : v.Stays sites gone) :
    (v.without sites gone).p.toInt.toNat = rankWithout sites gone v.p.toInt.toNat := by
  obtain ⟨site, hsite, _⟩ := h.beside
  have inside := (List.getElem?_eq_some_iff.mp hsite).1
  have least := rankWithout_le sites gone v.p.toInt.toNat
  rw [without, Int32.toInt_ofNat_of_lt (by omega), Int.toNat_natCast]

theorem Stays.without_inj (few : sites.length < 2 ^ 31) (hv : v.Stays sites gone)
    (hw : w.Stays sites gone) : v.without sites gone = w.without sites gone ↔ v = w := by
  refine ⟨fun same => ?_, fun same => same ▸ rfl⟩
  have rank := congrArg (·.p.toInt.toNat) same
  simp only [hv.rank few, hw.rank few] at rank
  obtain ⟨a, ha, besideV⟩ := hv.beside
  obtain ⟨b, hb, besideW⟩ := hw.beside
  have number : v.p.toInt.toNat = w.p.toInt.toNat := by
    rcases Nat.lt_trichotomy v.p.toInt.toNat w.p.toInt.toNat with less | same | less
    · have := countP_take_lt (q := (· != gone)) ha (by simpa using besideV) less
      unfold rankWithout at rank
      omega
    · exact same
    · have := countP_take_lt (q := (· != gone)) hb (by simpa using besideW) less
      unfold rankWithout at rank
      omega
  have p : v.p = w.p := by rw [← hv.number, ← hw.number, number]
  have cell := congrArg CrystalVector.cell same
  obtain ⟨a, b, c, _⟩ := v
  obtain ⟨a', b', c', _⟩ := w
  cases cell
  cases p
  rfl

end CrystalVector

namespace Encoder

open Fractional

/-- The point is encoded as a position of the site. -/
def LandsOn (e : Encoder) (sites : List Nat) (site : Nat) (v : Point) : Prop :=
  (e.encode v).bind (CrystalStructure.siteAt sites) = some site

/-- There is a position of another site that the point is close to. -/
def NearOther (e : Encoder) (sites : List Nat) (site : Nat) (v : Point) : Prop :=
  ∃ (p : Nat) (u : Point) (other : Nat), e.positions[p]? = some u ∧ sites[p]? = some other ∧
    other ≠ site ∧ e.tolerance.closePoints u (innerPoint e.tolerance v)

end Encoder

/-- An encoder whose positions are those of another one, apart from the positions of one site. -/
structure Thinned (e : Encoder) (sites : List Nat) (gone : Nat) (e' : Encoder)
    (sites' : List Nat) : Prop where
  tolerance : e'.tolerance = e.tolerance
  cell : e'.cell = e.cell
  aligned : e.positions.length = sites.length
  few : sites.length < 2 ^ 31
  positions : e'.positions = ((e.positions.zip sites).filter (·.2 != gone)).map (·.1)
  sites : sites' = sites.filter (· != gone)

namespace Thinned

open Fractional CrystalStructure

variable {e e' : Encoder} {sites sites' : List Nat} {gone : Nat} {v : Point}
  {code : CrystalVector} (thin : Thinned e sites gone e' sites')

include thin

theorem placeOf_number (h : e.encode v = some code) : ∃ site,
    sites[code.p.toInt.toNat]? = some site ∧ Int32.ofNat code.p.toInt.toNat = code.p ∧
      e.tolerance.placeOf e.positions (innerPoint e.tolerance v) = some code.p.toInt.toNat := by
  have few := thin.few
  obtain ⟨place, found, rfl⟩ := Encoder.encode_eq_some.mp h
  have inside := (List.findIdx?_eq_some_iff_getElem.mp found).1
  rw [thin.aligned] at inside
  have number : (Int32.ofNat place).toInt.toNat = place := by
    rw [Int32.toInt_ofNat_of_lt (by omega), Int.toNat_natCast]
  rw [number]
  exact ⟨sites[place], List.getElem?_eq_getElem inside, rfl, found⟩

theorem stays (h : e.encode v = some code) (beside : ¬e.LandsOn sites gone v) :
    code.Stays sites gone := by
  obtain ⟨site, hsite, number, _⟩ := thin.placeOf_number h
  refine ⟨number, site, hsite, ?_⟩
  rintro rfl
  exact beside (by rw [Encoder.LandsOn, h, Option.bind_some, siteAt, hsite])

/-- A point at a position that stays keeps its cell and gets the new number of the position. -/
theorem encode_eq (h : e.encode v = some code) (stays : code.Stays sites gone) :
    e'.encode v = some (code.without sites gone) := by
  obtain ⟨_, _, _, found⟩ := thin.placeOf_number h
  obtain ⟨site, hsite, other⟩ := stays.beside
  have moved := findIdx?_kept (q := (· != gone)) thin.aligned found hsite (by simpa using other)
  obtain ⟨_, _, cell, _⟩ := Encoder.encode_some h
  refine Encoder.encode_eq_some.mpr ⟨rankWithout sites gone code.p.toInt.toNat, ?_, ?_⟩
  · rw [thin.tolerance, Tolerance.placeOf, thin.positions]
    exact moved
  · rw [thin.tolerance, ← cell]
    rfl

theorem siteAt_eq (h : code.Stays sites gone) :
    siteAt sites' (code.without sites gone) = siteAt sites code := by
  obtain ⟨site, hsite, other⟩ := h.beside
  rw [siteAt, siteAt, h.rank thin.few, hsite, thin.sites]
  exact getElem?_filter_kept hsite (by simpa using other)

theorem encode_isSome_iff : e'.encode v ≠ none ↔ e.NearOther sites gone v := by
  unfold Encoder.encode
  rw [ne_eq, Option.map_eq_none_iff, thin.tolerance, Tolerance.placeOf, thin.positions]
  refine (findIdx?_kept_isSome_iff (q := (· != gone))).trans ?_
  simp [Encoder.NearOther, innerPoint]

theorem near_of_beside (h : e.encode v = some code) (beside : ¬e.LandsOn sites gone v) :
    e.NearOther sites gone v := by
  refine thin.encode_isSome_iff.mp ?_
  rw [thin.encode_eq h (thin.stays h beside)]
  exact Option.some_ne_none _

end Thinned

end CrystalModel
