import CrystalModel.Proofs.Reference.Validation
import CrystalModel.Proofs.Structure.Build

/-! # Reciprocal neighbourhoods

A position lists of an interaction what it sees of the views of that interaction. Both ends of
an interaction between two sites are views. Within one site there is one view only, and the
images of that view alone decide whether a target is listed from its other end as well. -/
namespace CrystalModel

/-- The way back to position `p` of the origin cell, seen from the target. -/
def CrystalVector.reversed (w : CrystalVector) (p : Nat) : CrystalVector :=
  ⟨-w.a, -w.b, -w.c, Int32.ofNat p⟩

namespace CrystalStructure

/-- Position `p` lists a target at `w` that comes from interaction `k`. -/
def Lists (s : CrystalStructure) (k p : Nat) (w : CrystalVector) : Prop :=
  ∃ c target m, s.cellPositions[p]? = some c ∧ target ∈ c.targets ∧ target.relative = w ∧
    s.pairModels[target.pairModel]? = some m ∧ m.interaction = k

/-- Every target of an interaction is listed from its other end. -/
def Reciprocal (s : CrystalStructure) (k : Nat) : Prop :=
  ∀ p w, s.Lists k p w → s.Lists k w.p.toInt.toNat (w.reversed p)

/-- Where position `p` sees the partner of a view: the images around the center, moved to the
position by the operation that leads there. -/
def seen (s : CrystalStructure) (v : PairView) (p : Nat) : List CrystalVector :=
  if s.positionSites[p]? = some v.centerSite then
    match originOf s.environments v.centerSite, s.encoder.positions[p]? with
    | some origin, some position => match s.symmetry.operationBetween origin position with
      | some op => (viewImages s.symmetry s.environments v).filterMap fun image =>
          s.encoder.encode (op.apply image)
      | none => []
    | _, _ => []
  else []

theorem mem_seen {s : CrystalStructure} {v : PairView} {p : Nat} {w : CrystalVector} :
    w ∈ s.seen v p ↔ s.positionSites[p]? = some v.centerSite ∧ ∃ origin position op,
      originOf s.environments v.centerSite = some origin ∧
      s.encoder.positions[p]? = some position ∧
      s.symmetry.operationBetween origin position = some op ∧
      ∃ image ∈ viewImages s.symmetry s.environments v,
        s.encoder.encode (op.apply image) = some w := by
  unfold seen
  by_cases site : s.positionSites[p]? = some v.centerSite
  · rw [if_pos site]
    cases origin : originOf s.environments v.centerSite with
    | none => simp
    | some o =>
      cases position : s.encoder.positions[p]? with
      | none => simp
      | some x =>
        cases op : s.symmetry.operationBetween o x with
        | none => simp [op]
        | some carry => simp [site, op]
  · simp [site]

theorem mem_activeViews {r : ReferenceData} {i : PairInteraction} {v : PairView} :
    (i, v) ∈ activeViews r ↔ i ∈ r.pairInteractions ∧ i.isActive ∧ v ∈ i.views := by
  simp only [activeViews, StructureDraft.viewsOf, List.mem_flatMap, List.mem_filter,
    List.mem_map, Prod.mk.injEq]
  constructor
  · rintro ⟨j, ⟨hj, active⟩, view, hview, rfl, rfl⟩
    exact ⟨hj, active, hview⟩
  · rintro ⟨hi, active, hv⟩
    exact ⟨i, ⟨hi, active⟩, v, hv, rfl, rfl⟩

variable {r : ReferenceData} {s : CrystalStructure}

/-- What a position lists of an active interaction is what it sees of its views. -/
theorem Sound.lists_iff (sound : Sound r s) {i : PairInteraction} (hi : i ∈ r.pairInteractions)
    (active : i.isActive) {p : Nat} {w : CrystalVector} :
    s.Lists i.index p w ↔ ∃ v ∈ i.views, w ∈ s.seen v p := by
  constructor
  · rintro ⟨c, target, m, hc, htarget, rfl, hm, hinteraction⟩
    obtain ⟨position, env, placed⟩ := sound.placed hc
    obtain ⟨id, hid, model, carried, hcarried, _, code⟩ := aligned_mem_right placed.targets htarget
    rw [model, hcarried, Option.some.injEq] at hm
    subst hm
    obtain ⟨known, hknown, _, ⟨j, v⟩, hview, index, he, image⟩ :=
      sound.known _ env id placed.found hid
    rw [hcarried, Option.some.injEq] at hknown
    subst hknown
    obtain ⟨hj, _, hv⟩ := mem_activeViews.mp hview
    have same : j = i := ReferenceData.pairInteraction_unique sound.places hj hi
      (index.symm.trans hinteraction)
    subst same
    have site : c.site = v.centerSite := environmentOf_inj placed.environment he
    have place := placed.site
    have origin := placed.origin
    rw [site] at place origin
    exact ⟨v, hv, mem_seen.mpr ⟨place, _, position, c.operation, origin, placed.point,
      placed.operation, carried.target, image, code⟩⟩
  · rintro ⟨v, hv, hw⟩
    obtain ⟨site, origin, position, op, horigin, hposition, hop, image, himage, code⟩ :=
      mem_seen.mp hw
    obtain ⟨c, env, hc, placed⟩ := sound.cell hposition
    have same : c.site = v.centerSite := Option.some.inj (placed.site.symm.trans site)
    have source := placed.origin
    rw [same, horigin, Option.some.injEq] at source
    have carry := placed.operation
    rw [← source, hop, Option.some.injEq] at carry
    obtain ⟨e, env', id, m, he, henv, hid, hm, hinteraction, htarget⟩ :=
      sound.listed (i, v) (mem_activeViews.mpr ⟨hi, active, hv⟩) image himage
    have at_center := placed.environment
    rw [same, he, Option.some.injEq] at at_center
    rw [at_center, placed.found, Option.some.injEq] at henv
    rw [← henv] at hid
    obtain ⟨target, ht, model, m', hm', _, relative⟩ := aligned_mem_left placed.targets hid
    rw [hm, Option.some.injEq] at hm'
    rw [← hm', htarget, ← carry, code, Option.some.injEq] at relative
    exact ⟨c, target, m, hc, ht, relative.symm, model ▸ hm, hinteraction⟩

variable {config : Config}

/-- An active interaction is listed from both ends of all its targets exactly when, for every
target that a position sees of one of its views, the way back is seen there of one of its views.
An interaction within one site has no second view that would show it. -/
theorem reciprocal_iff [Trigonometry] (h : build r config = .ok s) {i : PairInteraction}
    (hi : i ∈ r.pairInteractions) (active : i.isActive) :
    s.Reciprocal i.index ↔ ∀ v ∈ i.views, ∀ p, ∀ w ∈ s.seen v p,
      ∃ back ∈ i.views, w.reversed p ∈ s.seen back w.p.toInt.toNat := by
  have sound := sound_of_build h
  constructor
  · intro reciprocal v hv p w hw
    exact (sound.lists_iff hi active).mp
      (reciprocal p w ((sound.lists_iff hi active).mpr ⟨v, hv, hw⟩))
  · intro back p w hw
    obtain ⟨v, hv, hw⟩ := (sound.lists_iff hi active).mp hw
    exact (sound.lists_iff hi active).mpr (back v hv p w hw)

open ReferenceData in
theorem chain_not_reciprocal :
    ∃ s, @build rightAngle chain plainConfig = .ok s ∧ ¬ s.Reciprocal 0 := by
  let i : PairInteraction := ⟨0, 0, 0, ⟨0.0, 0.0, 0.0⟩, ⟨1.0, 0.0, 0.0⟩, .symmetric, [], .active⟩
  have found : (@build rightAngle chain plainConfig).toOption.any fun s =>
      decide (∃ v ∈ i.views, ∃ w ∈ s.seen v 0,
        ∀ back ∈ i.views, w.reversed 0 ∉ s.seen back w.p.toInt.toNat) := by decide +kernel
  obtain ⟨s, built, seen⟩ := ok_of_any found
  obtain ⟨v, hv, w, hw, alone⟩ := of_decide_eq_true seen
  refine ⟨s, built, fun reciprocal => ?_⟩
  obtain ⟨back, hback, hreversed⟩ := (@reciprocal_iff _ s _ rightAngle built i
    (by decide +kernel) (by decide)).mp reciprocal v hv 0 w hw
  exact alone back hback hreversed

end CrystalStructure

end CrystalModel
