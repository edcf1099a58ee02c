import CrystalModel.Proofs.Geometry.Thinning
import CrystalModel.Proofs.Path.Ring
import CrystalModel.Proofs.Transition.Buildable
import Mathlib.Data.List.Nodup

/-! # Paths that do not meet a site

A path on other sites is encoded with the new numbers of its positions. Rings, turned paths and
movements do not notice. -/
namespace CrystalModel

namespace CrystalVector

variable {sites : List Nat} {gone : Nat}

theorem path_without_inj (few : sites.length < 2 ^ 31) {path other : List CrystalVector}
    (hpath : ∀ v ∈ path, v.Stays sites gone) (hother : ∀ v ∈ other, v.Stays sites gone) :
    path.map (·.without sites gone) = other.map (·.without sites gone) ↔ path = other := by
  refine ⟨fun same => ?_, fun same => same ▸ rfl⟩
  induction path generalizing other with
  | nil => exact (List.map_eq_nil_iff.mp same.symm).symm
  | cons v rest ih =>
    cases other with
    | nil => simp at same
    | cons w rest' =>
      rw [List.forall_mem_cons] at hpath hother
      rw [List.map_cons, List.map_cons, List.cons.injEq] at same
      rw [(hpath.1.without_inj few hother.1).mp same.1, ih hpath.2 hother.2 same.2]

theorem turnedPath_without (path : List CrystalVector) :
    turnedPath (path.map (·.without sites gone)) =
      (turnedPath path).map (·.without sites gone) := by
  unfold turnedPath
  rw [List.getLast?_map]
  cases path.getLast? with
  | none => rfl
  | some last =>
    simp only [Option.map_some, ← List.map_reverse, List.map_map]
    rfl

theorem turnedPath_stays {path : List CrystalVector} (h : ∀ v ∈ path, v.Stays sites gone) :
    ∀ v ∈ turnedPath path, v.Stays sites gone := by
  unfold turnedPath
  split
  · simp
  · next last _ =>
    intro v hv
    obtain ⟨w, hw, rfl⟩ := List.mem_map.mp hv
    exact (h w (List.mem_reverse.mp hw)).shifted _

theorem ring_without (few : sites.length < 2 ^ 31) {path : List CrystalVector}
    (h : ∀ v ∈ path, v.Stays sites gone) (openPath : isCrystalRing path = false) :
    isCrystalRing (path.map (·.without sites gone)) = false := by
  rw [← Bool.not_eq_true, isCrystalRing_iff, not_not] at openPath ⊢
  refine List.Nodup.map_on (fun v hv w hw same => ?_) openPath
  exact ((h v hv).without_inj few (h w hw)).mp same

end CrystalVector

namespace Thinned

variable {e e' : Encoder} {sites sites' : List Nat} {gone : Nat} {points : List Point}
  {path : List CrystalVector} (thin : Thinned e sites gone e' sites')

include thin

theorem stays_of_encodeAll (h : e.encodeAll points = some path)
    (beside : ∀ v ∈ points, ¬e.LandsOn sites gone v) : ∀ v ∈ path, v.Stays sites gone := by
  intro code hcode
  obtain ⟨v, hv, found⟩ := aligned_mem_right (mapM_some_iff.mp h) hcode
  exact thin.stays found (beside v hv)

theorem encodeAll_eq (h : e.encodeAll points = some path)
    (stays : ∀ v ∈ path, v.Stays sites gone) :
    e'.encodeAll points = some (path.map (·.without sites gone)) := by
  refine mapM_some_iff.mpr (List.forall₂_map_right_iff.mpr ?_)
  refine aligned_imp (mapM_some_iff.mp h) fun v _ code hcode found => ?_
  exact thin.encode_eq found (stays code hcode)

theorem near_of_encodeAll (h : e'.encodeAll points = some path) :
    ∀ v ∈ points, e.NearOther sites gone v := by
  intro v hv
  obtain ⟨code, _, found⟩ := aligned_mem_left (mapM_some_iff.mp h) hv
  refine thin.encode_isSome_iff.mp ?_
  rw [found]
  exact Option.some_ne_none _

end Thinned

def PathDraft.without (x : PathDraft) (sites : List Nat) (gone : Nat) : PathDraft :=
  { x with path := x.path.map (·.without sites gone) }

def PathDraft.Stays (x : PathDraft) (sites : List Nat) (gone : Nat) : Prop :=
  ∀ v ∈ x.path, v.Stays sites gone

namespace PathDraft

variable [Trigonometry] {e e' : Encoder} {sites sites' : List Nat} {gone : Nat} {x y : PathDraft}
  {offsets : List Int} {points : List Point} (thin : Thinned e sites gone e' sites')

include thin

theorem ofPoints_without (h : ofPoints e offsets points = some x) (stays : x.Stays sites gone) :
    ofPoints e' offsets points = some (x.without sites gone) := by
  obtain ⟨path, hpath, h⟩ := Option.bind_eq_some_iff.mp h
  obtain ⟨movement, hmovement, h⟩ := Option.bind_eq_some_iff.mp h
  cases h
  have same : movementAt e' = movementAt e := by
    funext points i offset
    rw [movementAt, movementAt, thin.cell]
  refine Option.bind_eq_some_iff.mpr ⟨_, thin.encodeAll_eq hpath stays, ?_⟩
  refine Option.bind_eq_some_iff.mpr ⟨movement, ?_, rfl⟩
  rw [same]
  exact hmovement

theorem reversed_without (h : x.reversed e offsets = some y) (stays : y.Stays sites gone) :
    (x.without sites gone).reversed e' offsets = some (y.without sites gone) := by
  obtain ⟨last, hlast, made⟩ := Option.bind_eq_some_iff.mp h
  refine Option.bind_eq_some_iff.mpr ⟨last.without sites gone, ?_, ofPoints_without thin made stays⟩
  rw [without, List.getLast?_map, hlast]
  rfl

omit thin in
theorem reversed_points {turned : PathDraft} (h : x.reversed e offsets = some y)
    (back : (x.without sites gone).reversed e' offsets = some turned) :
    turned.fractional = y.fractional := by
  obtain ⟨last, hlast, made⟩ := Option.bind_eq_some_iff.mp h
  obtain ⟨last', hlast', made'⟩ := Option.bind_eq_some_iff.mp back
  rw [without, List.getLast?_map, hlast, Option.map_some, Option.some.injEq] at hlast'
  subst hlast'
  rw [(ofPoints_some made).1, (ofPoints_some made').1]
  rfl

end PathDraft

/-- A draft with the same mappings as another one, under the new numbers of their positions. -/
structure DraftTransition.Moved (sites : List Nat) (gone : Nat) (d d' : DraftTransition) :
    Prop where
  kind : d'.kind = d.kind
  connectors : d'.connectors = d.connectors
  unstable : d'.unstable = d.unstable
  stays : ∀ x ∈ d.mappings, x.Stays sites gone
  mappings : ∀ x', x' ∈ d'.mappings ↔ ∃ x ∈ d.mappings, x' = x.without sites gone

namespace DraftTransition.Moved

variable {sites : List Nat} {gone : Nat} {d d' : DraftTransition}

theorem forall_mem (h : Moved sites gone d d') {p : PathDraft → Prop} :
    (∀ x' ∈ d'.mappings, p x') ↔ ∀ x ∈ d.mappings, p (x.without sites gone) := by
  constructor
  · intro each x hx
    exact each _ ((h.mappings _).mpr ⟨x, hx, rfl⟩)
  · intro each x' hx'
    obtain ⟨x, hx, rfl⟩ := (h.mappings x').mp hx'
    exact each x hx

theorem turnsBack_iff (h : Moved sites gone d d') (few : sites.length < 2 ^ 31) {x : PathDraft}
    (hx : x ∈ d.mappings) : d'.TurnsBack (x.without sites gone) ↔ d.TurnsBack x := by
  have turned := CrystalVector.turnedPath_stays (h.stays x hx)
  unfold TurnsBack
  rw [PathDraft.without, CrystalVector.turnedPath_without, List.mem_map, List.mem_map]
  constructor
  · rintro ⟨y', hy', same⟩
    obtain ⟨y, hy, rfl⟩ := (h.mappings y').mp hy'
    exact ⟨y, hy, (CrystalVector.path_without_inj few (h.stays y hy) turned).mp same⟩
  · rintro ⟨y, hy, same⟩
    exact ⟨y.without sites gone, (h.mappings _).mpr ⟨y, hy, rfl⟩, by rw [← same]; rfl⟩

theorem ownLinks_none_iff (h : Moved sites gone d d') (few : sites.length < 2 ^ 31) :
    d'.ownLinks = .ok none ↔ d.ownLinks = .ok none := by
  rw [DraftTransition.ownLinks_none_iff, DraftTransition.ownLinks_none_iff, h.forall_mem]
  exact forall₂_congr fun x hx => not_congr (h.turnsBack_iff few hx)

theorem ownLinks_some_iff (h : Moved sites gone d d') (few : sites.length < 2 ^ 31) :
    (∃ links, d'.ownLinks = .ok (some links)) ↔ ∃ links, d.ownLinks = .ok (some links) := by
  rw [DraftTransition.ownLinks_some_iff, DraftTransition.ownLinks_some_iff, h.forall_mem]
  refine and_congr (not_congr ?_) (forall₂_congr fun x hx => h.turnsBack_iff few hx)
  rw [List.eq_nil_iff_forall_not_mem, List.eq_nil_iff_forall_not_mem, h.forall_mem]

/-- The mappings still find their inverses when the reversed paths do not meet the site either. -/
theorem linkable [Trigonometry] {e e' : Encoder} {sites' : List Nat} (h : Moved sites gone d d')
    (thin : Thinned e sites gone e' sites') (linked : d.Linkable e)
    (stays : ∀ turned, d.ownLinks = .ok none → d.reversed e = some turned →
      ∀ y ∈ turned.mappings, y.Stays sites gone) : d'.Linkable e' := by
  rcases linked with own | ⟨apart, turned, back⟩
  · exact Or.inl ((h.ownLinks_some_iff thin.few).mpr own)
  refine Or.inr ⟨(h.ownLinks_none_iff thin.few).mpr apart, ?_⟩
  obtain ⟨_, _, each⟩ := DraftTransition.reversed_some back
  have turnable : ∀ x' ∈ d'.mappings, ∃ y', x'.reversed e'
      (pathOffsets d'.kind d'.connectors.reverse d'.unstable.reverse) = some y' := by
    rw [h.kind, h.connectors, h.unstable, h.forall_mem]
    intro x hx
    obtain ⟨y, hy, reversed⟩ := aligned_mem_left each hx
    exact ⟨_, PathDraft.reversed_without thin reversed (stays turned apart back y hy)⟩
  obtain ⟨mappings, made⟩ := mapM_isSome_iff.mpr turnable
  exact ⟨_, Option.bind_eq_some_iff.mpr ⟨mappings, made, rfl⟩⟩

/-- The mappings find inverses on reversed paths only where these meet positions that stayed. -/
theorem turned_near [Trigonometry] {e e' : Encoder} {sites' : List Nat}
    {turned : DraftTransition} (h : Moved sites gone d d') (thin : Thinned e sites gone e' sites')
    (alone : d.ownLinks = .ok none) (back : d.reversed e = some turned) (linked : d'.Linkable e') :
    ∀ y ∈ turned.mappings, ∀ v ∈ y.fractional, e.NearOther sites gone v := by
  have alone' := (h.ownLinks_none_iff thin.few).mpr alone
  rcases linked with ⟨links, own⟩ | ⟨_, turned', back'⟩
  · rw [alone'] at own
    cases own
  intro y hy
  obtain ⟨_, _, each⟩ := DraftTransition.reversed_some back
  obtain ⟨_, _, each'⟩ := DraftTransition.reversed_some back'
  rw [h.kind, h.connectors, h.unstable] at each'
  obtain ⟨x, hx, reversed⟩ := aligned_mem_right each hy
  obtain ⟨y', _, reversed'⟩ := aligned_mem_left each' ((h.mappings _).mpr ⟨x, hx, rfl⟩)
  have encoded := (PathDraft.reversed_some reversed').2.path
  rw [PathDraft.reversed_points reversed reversed'] at encoded
  exact thin.near_of_encodeAll encoded

end DraftTransition.Moved

end CrystalModel
