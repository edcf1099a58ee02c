import CrystalModel.Proofs.Reference.Validation
import CrystalModel.Proofs.Structure.Buildable
import CrystalModel.Proofs.Structure.Failure
import CrystalModel.Proofs.Symmetry.Identity

/-! # Classes without a representative

A class is the list of images that the operations which keep its center in place make of a partner,
and the first image stands for the class. Whether there is one depends on the center alone, and a
group that was accepted may keep no center in place at all. -/
namespace CrystalModel

open BuildError

namespace StructureDraft

open CrystalStructure

variable {d : StructureDraft} {domain : Domain} {index : Nat}

/-- The class of a view is empty when the partner, carried to the center, has no image. -/
theorem addPairView_emptyClass_iff [Trigonometry] {i : PairInteraction} {v : PairView} :
    addPairView i d v = .error (.emptyClass domain index) ↔
      domain = .pairInteraction ∧ index = i.index ∧ ∃ origin op,
        originOf d.environments v.centerSite = some origin ∧
        d.symmetry.operationBetween v.center origin = some op ∧
        partnerImages d.symmetry origin (op.apply v.partner) = [] := by
  unfold addPairView
  cases he : environmentOf d.environments v.centerSite with
  | none => simp [originOf, he]
  | some e =>
    obtain ⟨env, henv, _⟩ := environmentOf_site he
    have ho : originOf d.environments v.centerSite = some env.dictionary.source := by
      simp [originOf, he, henv]
    simp only [henv, Option.map_some, Option.getD_some, ho, Option.some.injEq, List.isEmpty_iff]
    cases hop : d.symmetry.operationBetween v.center env.dictionary.source with
    | none =>
      refine iff_of_false (fun h => by cases h) ?_
      rintro ⟨_, _, _, op, rfl, carried, _⟩
      exact absurd (hop.symm.trans carried) (Option.some_ne_none op).symm
    | some op =>
      simp only
      split
      · next empty =>
        constructor
        · intro h
          cases h
          exact ⟨rfl, rfl, _, op, rfl, hop, empty⟩
        · rintro ⟨rfl, rfl, _⟩
          rfl
      · next nonempty =>
        refine iff_of_false (fun h => ?_) ?_
        · refine absurd trivial ((Avoids.bind ?_ fun _ _ => .ok _ : Avoids IsEmptyClass _) _ h)
          exact .mapM fun image _ => (pairModel_avoids i v e _ image _).emptyClass
        · rintro ⟨_, _, _, other, rfl, carried, empty⟩
          rw [hop, Option.some.injEq] at carried
          exact nonempty (carried ▸ empty)

theorem addGroup_emptyClass_iff {i : GroupInteraction} :
    d.addGroup i = .error (.emptyClass domain index) ↔
      domain = .groupInteraction ∧ index = i.index ∧
        (i.geometry ≠ [] ∧ i.geometry.length ≤ 8) ∧ ∃ origin,
          originOf d.environments i.centerSite = some origin ∧
          d.symmetry.sequenceImages origin i.geometry = [] := by
  unfold addGroup
  cases he : environmentOf d.environments i.centerSite with
  | none => simp [originOf, he]
  | some e =>
    obtain ⟨env, henv, _⟩ := environmentOf_site he
    have ho : originOf d.environments i.centerSite = some env.dictionary.source := by
      simp [originOf, he, henv]
    have size : (i.geometry ≠ [] ∧ i.geometry.length ≤ 8) ↔
        ¬(i.geometry.isEmpty ∨ 8 < i.geometry.length) := by
      rw [not_or, List.isEmpty_iff, Nat.not_lt]
    rw [size]
    simp only [henv, Option.map_some, Option.getD_some, ho, Option.some.injEq, exists_eq_left']
    split
    · next outside => exact iff_of_false (fun h => by cases h) fun h => h.2.2.1 outside
    · next inside =>
      simp only [List.isEmpty_iff] at inside ⊢
      split
      · next empty =>
        constructor
        · intro h
          cases h
          exact ⟨rfl, rfl, inside, empty⟩
        · rintro ⟨rfl, rfl, _⟩
          rfl
      · next nonempty =>
        refine iff_of_false (fun h => ?_) fun h => nonempty h.2.2.2
        refine absurd trivial ((Avoids.bind ?_ fun _ _ => .ok _ : Avoids IsEmptyClass _) _ h)
        exact .mapM fun sequence _ => (groupModel_avoids i e _ _ sequence).emptyClass

theorem addPair_emptyClass_iff [Trigonometry] {r : ReferenceData} {i : PairInteraction} :
    d.addPair r i = .error (.emptyClass domain index) ↔ i.checkSites r = .ok () ∧
      ∃ v seen, GetsTo (addPairView i) d i.views v seen ∧
        addPairView i seen v = .error (.emptyClass domain index) := by
  rw [addPair, bind_error_iff, ← foldlM_error_iff]
  constructor
  · rintro (unknown | ⟨⟨⟩, known, failed⟩)
    · exact absurd trivial ((i.checkSites_avoids r).emptyClass _ unknown)
    · exact ⟨known, failed⟩
  · rintro ⟨known, failed⟩
    exact Or.inr ⟨(), known, failed⟩

theorem partnerImages_eq_nil_iff {s : Symmetry} {origin target : Point} :
    partnerImages s origin target = [] ↔ ¬s.Fixes origin := by
  rw [partnerImages, Symmetry.firsts_eq_nil_iff, List.map_eq_nil_iff,
    Symmetry.siteOperations_eq_nil_iff]

section Frame

variable {d' : StructureDraft}

theorem SameFrame.foldlM {α : Type} {f : StructureDraft → α → Except BuildError StructureDraft}
    {xs : List α} (keeps : ∀ {d x d'}, f d x = .ok d' → SameFrame d d')
    (h : xs.foldlM f d = .ok d') : SameFrame d d' :=
  foldlM_ok_induction (motive := fun _ d' => SameFrame d d') h (.refl d)
    fun _ _ _ _ _ _ frame step => frame.trans (keeps step)

theorem SameFrame.addPair [Trigonometry] {r : ReferenceData} {i : PairInteraction}
    (h : d.addPair r i = .ok d') : SameFrame d d' := by
  obtain ⟨_, _, viewed⟩ := bind_ok_iff.mp h
  exact .foldlM (fun step => .addPairView step) viewed

theorem SameFrame.addGroup {i : GroupInteraction} (h : d.addGroup i = .ok d') :
    SameFrame d d' := by
  obtain ⟨_, _, _, _, _, _, _, rfl⟩ := addGroup_ok h
  refine ⟨rfl, rfl, rfl, map_modify_eq ?_⟩
  intro env
  rfl

end Frame

end StructureDraft

namespace CrystalStructure

open StructureDraft

/-- The class of an interaction around a center, as it is about to be made. -/
structure Expansion where
  domain : Domain
  index : Nat
  site : Nat
  origin : Point
  images : List (List Point)

variable {r : ReferenceData} {config : Config} {s : Symmetry} {x : Expansion} {domain : Domain}
  {index : Nat}

theorem originOf_draft_eq {l : PositionList} {site : Nat} {origin : Point}
    (center : originOf (draft s r.cell r l).environments site = some origin) :
    ∃ y ∈ r.sites, y.isActive ∧ y.index = site ∧
      origin = Fractional.trimPoint s.tolerance y.vector := by
  obtain ⟨e, he, source⟩ := Option.bind_eq_some_iff.mp center
  obtain ⟨env, henv, same⟩ := environmentOf_site he
  obtain ⟨y, hy, rfl⟩ := List.mem_map.mp (List.mem_of_getElem? henv)
  rw [henv, Option.map_some, Option.some.injEq] at source
  obtain ⟨member, active⟩ := List.mem_filter.mp hy
  exact ⟨y, member, active, same, source.symm⟩

def finish (d : StructureDraft) : Except BuildError CrystalStructure := do
  let cellPositions ← d.encoder.positions.zipIdx.mapM fun (point, position) =>
    d.cellPosition position point
  checkClasses d.pairClasses (d.pairModels.map fun m => (m.modelId, m.equivalents))
  checkClasses d.groupClasses (d.groupModels.map fun m => (m.modelId, m.equivalents))
  return { d with cellPositions }

theorem finish_avoids (d : StructureDraft) : Avoids IsEmptyClass (finish d) :=
  .bind (.mapM fun x _ => (cellPosition_avoids x.2 x.1).emptyClass) fun _ _ =>
    .bind (checkClasses_avoids _ _) fun _ _ =>
      .bind (checkClasses_avoids _ _) fun _ _ => .ok _

section Build

variable [Trigonometry]

structure Prepared (r : ReferenceData) (config : Config) (s : Symmetry) (l : PositionList) :
    Prop where
  places : r.checkPlaces = .ok ()
  symmetry : r.symmetry (.ofWidth config.geometryTolerance) = .ok s
  cell : r.cell.isValid
  positions : PositionList.ofSites s r = .ok l

/-- The expansions that a build gets to. All that comes before them succeeds, and their centers are
found. -/
inductive Expands (r : ReferenceData) (config : Config) (s : Symmetry) : Expansion → Prop
  | pair {l : PositionList} {i : PairInteraction} {v : PairView} {before seen : StructureDraft}
      {origin : Point} {op : Operation} (prepared : Prepared r config s l)
      (reached : GetsTo (addPair r) (draft s r.cell r l) (activePairs r) i before)
      (known : i.checkSites r = .ok ())
      (viewed : GetsTo (addPairView i) before i.views v seen)
      (center : originOf seen.environments v.centerSite = some origin)
      (carried : seen.symmetry.operationBetween v.center origin = some op) :
      Expands r config s ⟨.pairInteraction, i.index, v.centerSite, origin,
        (partnerImages seen.symmetry origin (op.apply v.partner)).map ([·])⟩
  | group {l : PositionList} {paired seen : StructureDraft} {i : GroupInteraction}
      {origin : Point} (prepared : Prepared r config s l)
      (laid : (activePairs r).foldlM (addPair r) (draft s r.cell r l) = .ok paired)
      (reached : GetsTo addGroup paired (activeGroups r) i seen)
      (size : i.geometry ≠ [] ∧ i.geometry.length ≤ 8)
      (center : originOf seen.environments i.centerSite = some origin) :
      Expands r config s ⟨.groupInteraction, i.index, i.centerSite, origin,
        seen.symmetry.sequenceImages origin i.geometry⟩

theorem Prepared.build_eq {l : PositionList} (prepared : Prepared r config s l) :
    build r config = (do
      let d ← (activePairs r).foldlM (addPair r) (draft s r.cell r l)
      let d ← (activeGroups r).foldlM addGroup d
      finish d) := by
  simp only [build, prepared.places, prepared.symmetry, Except.mapError, prepared.cell,
    prepared.positions, bind, Except.bind, Bool.not_true, Bool.false_eq_true, if_false]
  rfl

theorem prepared_of_emptyClass (h : build r config = .error (.emptyClass domain index)) :
    ∃ s l, Prepared r config s l := by
  rcases bind_error_iff.mp h with failed | ⟨⟨⟩, places, h⟩
  · exact absurd trivial (r.checkPlaces_avoids.emptyClass _ failed)
  rcases bind_error_iff.mp h with failed | ⟨s, symmetry, h⟩
  · cases hs : r.symmetry (.ofWidth config.geometryTolerance) <;> rw [hs] at failed <;> cases failed
  split at h
  · cases h
  · next cell =>
    rcases bind_error_iff.mp h with failed | ⟨l, positions, _⟩
    · exact absurd trivial ((PositionList.ofSites_avoids s r).emptyClass _ failed)
    · exact ⟨s, l, places, mapError_ok_iff.mp symmetry, by simpa using cell, positions⟩

theorem build_emptyClass_iff : build r config = .error (.emptyClass domain index) ↔
    ∃ s l, Prepared r config s l ∧
      ((activePairs r).foldlM (addPair r) (draft s r.cell r l) =
          .error (.emptyClass domain index) ∨
        ∃ paired, (activePairs r).foldlM (addPair r) (draft s r.cell r l) = .ok paired ∧
          (activeGroups r).foldlM addGroup paired = .error (.emptyClass domain index)) := by
  constructor
  · intro h
    obtain ⟨s, l, prepared⟩ := prepared_of_emptyClass h
    rw [prepared.build_eq] at h
    refine ⟨s, l, prepared, ?_⟩
    rcases bind_error_iff.mp h with failed | ⟨paired, laid, h⟩
    · exact Or.inl failed
    rcases bind_error_iff.mp h with failed | ⟨grouped, _, h⟩
    · exact Or.inr ⟨paired, laid, failed⟩
    · exact absurd trivial (finish_avoids grouped _ h)
  · rintro ⟨s, l, prepared, failed⟩
    rw [prepared.build_eq]
    rcases failed with failed | ⟨paired, laid, failed⟩
    · exact bind_error_iff.mpr (Or.inl failed)
    · exact bind_error_iff.mpr (Or.inr ⟨paired, laid, bind_error_iff.mpr (Or.inl failed)⟩)

/-- A build fails for an empty class where an expansion that it gets to has no images. -/
theorem build_emptyClass_iff_expands : build r config = .error (.emptyClass domain index) ↔
    ∃ s x, Expands r config s x ∧ x.domain = domain ∧ x.index = index ∧ x.images = [] := by
  rw [build_emptyClass_iff]
  simp only [foldlM_error_iff, addPair_emptyClass_iff, addPairView_emptyClass_iff,
    addGroup_emptyClass_iff]
  constructor
  · rintro ⟨s, l, prepared, ⟨i, before, reached, known, v, seen, viewed, rfl, rfl, origin, op,
      center, carried, empty⟩ | ⟨paired, laid, i, seen, reached, rfl, rfl, size, origin, center,
      empty⟩⟩
    · exact ⟨s, _, .pair prepared reached known viewed center carried, rfl, rfl,
        List.map_eq_nil_iff.mpr empty⟩
    · exact ⟨s, _, .group prepared laid reached size center, rfl, rfl, empty⟩
  · rintro ⟨s, x, expands, rfl, rfl, empty⟩
    cases expands with
    | pair prepared reached known viewed center carried =>
      exact ⟨s, _, prepared, Or.inl ⟨_, _, reached, known, _, _, viewed, rfl, rfl, _, _, center,
        carried, List.map_eq_nil_iff.mp empty⟩⟩
    | group prepared laid reached size center =>
      exact ⟨s, _, prepared, Or.inr ⟨_, laid, _, _, reached, rfl, rfl, size, _, center, empty⟩⟩

/-- Interactions change neither the symmetry nor the centers, so a class is empty exactly when its
center, the place of a site, is not kept in place. -/
theorem Expands.images_eq_nil_iff (h : Expands r config s x) : ∃ l, Prepared r config s l ∧
    originOf (draft s r.cell r l).environments x.site = some x.origin ∧
    (x.images = [] ↔ ¬s.Fixes x.origin) := by
  cases h with
  | @pair l i v before seen origin op prepared reached known viewed center carried =>
    obtain ⟨done, _, _, laid⟩ := reached
    obtain ⟨_, _, _, views⟩ := viewed
    have frame := (SameFrame.foldlM (.addPair ·) laid).trans (.foldlM (.addPairView ·) views)
    have symmetry : seen.symmetry = s := frame.symmetry
    rw [originOf_congr frame.bare] at center
    refine ⟨l, prepared, center, ?_⟩
    rw [List.map_eq_nil_iff, symmetry, partnerImages_eq_nil_iff]
  | @group l paired seen i origin prepared laid reached size center =>
    obtain ⟨done, _, _, groups⟩ := reached
    have frame := (SameFrame.foldlM (.addPair ·) laid).trans (.foldlM (.addGroup ·) groups)
    have symmetry : seen.symmetry = s := frame.symmetry
    rw [originOf_congr frame.bare] at center
    refine ⟨l, prepared, center, ?_⟩
    rw [symmetry, Symmetry.sequenceImages_eq_nil_iff]

/-- The first image of a class is taken for granted, and a build breaks down exactly where it gets
to a class without one: around the place of a site that no operation of the group keeps in place.
That the group was accepted for an operation that is the identity to the tolerance does not help.
Where one is the identity to a fourth of the tolerance, less the rounding, or exactly, every class
has an image but those around sites with a coordinate that is no finite number. -/
theorem classes_empty_iff (r : ReferenceData) (config : Config) :
    (∀ domain index, build r config = .error (.emptyClass domain index) ↔
      ∃ s x, Expands r config s x ∧ x.domain = domain ∧ x.index = index ∧ x.images = []) ∧
    ∀ s x, Expands r config s x →
      (∃ op ∈ s.group.operations, op.isIdentity s.tolerance = true) ∧
      (x.images = [] ↔ ¬s.Fixes x.origin) ∧
      ∃ site ∈ r.sites, site.isActive ∧ site.index = x.site ∧
        x.origin = Fractional.trimPoint s.tolerance site.vector ∧
        (s.HasIdentity → (x.images = [] ↔ site.vector.all (·.isFinite) = false)) := by
  refine ⟨fun domain index => build_emptyClass_iff_expands, fun s x expands => ?_⟩
  obtain ⟨l, prepared, center, empty⟩ := expands.images_eq_nil_iff
  obtain ⟨site, member, active, index, origin⟩ := originOf_draft_eq center
  refine ⟨ReferenceData.symmetry_identity prepared.symmetry, empty, site, member, active, index,
    origin, fun identity => ?_⟩
  rw [empty, origin, identity.fixes_trimPoint_iff, Bool.not_eq_true]

end Build

section Stretched

open ReferenceData

/-- The chain around another origin, in a group whose only operation stretches and shifts it, by a
little less than the tolerance each. -/
def stretchedChain : ReferenceData := { chain with
  spaceGroup := ⟨1, "stretched", ["1.0000008x+0.0000008,y,z"]⟩
  sites := [⟨0, "a", ⟨0.5, 0.0, 0.0⟩, 0, .stable, .active⟩]
  pairInteractions :=
    [⟨0, 0, 0, ⟨0.4999988, 0.0, 0.0⟩, ⟨-0.5, 0.0, 0.0⟩, .symmetric, [], .active⟩]
  groupInteractions := [] }

theorem stretchedChain_unrepresented :
    (@build rightAngle stretchedChain plainConfig = .error (.emptyClass .pairInteraction 0) ∧
      ∃ s x, @Expands rightAngle stretchedChain plainConfig s x ∧
        (∃ op ∈ s.group.operations, op.isIdentity s.tolerance = true) ∧ ¬s.Fixes x.origin) ∧
    ∃ s x, @Expands rightAngle chain plainConfig s x ∧ s.HasIdentity ∧ x.images ≠ [] := by
  let _ := rightAngle
  constructor
  · have crash : build stretchedChain plainConfig = .error (.emptyClass .pairInteraction 0) := by
      decide +kernel
    obtain ⟨empty, kept⟩ := classes_empty_iff stretchedChain plainConfig
    obtain ⟨s, x, expands, _, _, imageless⟩ := (empty .pairInteraction 0).mp crash
    obtain ⟨accepted, unfixed, _⟩ := kept s x expands
    exact ⟨crash, s, x, expands, accepted, unfixed.mp imageless⟩
  · let op : Operation := ⟨"x,y,z", Mat3.identity, Point.zero⟩
    let s : Symmetry := ⟨⟨1, "P1", [op]⟩, .ofWidth 1.0e-6⟩
    have prepared : Prepared chain plainConfig s ⟨[Point.zero], [0]⟩ :=
      ⟨by decide +kernel, by decide +kernel, by decide +kernel, by decide +kernel⟩
    have expands : Expands chain plainConfig s ⟨.pairInteraction, 0, 0, Point.zero, _⟩ :=
      .pair (i := ⟨0, 0, 0, ⟨0.0, 0.0, 0.0⟩, ⟨1.0, 0.0, 0.0⟩, .symmetric, [], .active⟩) prepared
        ⟨[], [], rfl, rfl⟩ (by decide +kernel) ⟨[], [], rfl, rfl⟩ (by decide +kernel)
        (show s.operationBetween Point.zero Point.zero = some op by decide +kernel)
    have identity : s.HasIdentity :=
      ⟨.ofWidth 0.0, Tolerance.absorbs_zero (by decide), op, List.mem_singleton_self op,
        by decide +kernel⟩
    obtain ⟨_, _, site, member, _, _, _, only⟩ :=
      (classes_empty_iff chain plainConfig).2 s _ expands
    refine ⟨s, _, expands, identity, fun imageless => ?_⟩
    have unfit := (only identity).mp imageless
    obtain rfl := List.mem_singleton.mp member
    exact absurd unfit (by decide)

end Stretched

end CrystalStructure

end CrystalModel
