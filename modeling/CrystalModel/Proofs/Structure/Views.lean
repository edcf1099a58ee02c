import CrystalModel.Proofs.Geometry.Thinning
import CrystalModel.Proofs.Structure.Pair

/-! # Views that models can be made of

Whether a view gets its class depends on the symmetry, the positions and the environments, and
never on the models that are already there. -/
namespace CrystalModel

namespace StructureDraft

open CrystalStructure

/-- The drafts differ in their models only. -/
structure SameFrame (d d' : StructureDraft) : Prop where
  symmetry : d'.symmetry = d.symmetry
  encoder : d'.encoder = d.encoder
  positionSites : d'.positionSites = d.positionSites
  bare : d'.environments.map Environment.bare = d.environments.map Environment.bare

variable {d d' d'' : StructureDraft} {i : PairInteraction} {v : PairView}

theorem SameFrame.refl (d : StructureDraft) : SameFrame d d := ⟨rfl, rfl, rfl, rfl⟩

theorem SameFrame.trans (h : SameFrame d d') (h' : SameFrame d' d'') : SameFrame d d'' :=
  ⟨h'.symmetry.trans h.symmetry, h'.encoder.trans h.encoder,
    h'.positionSites.trans h.positionSites, h'.bare.trans h.bare⟩

theorem SameFrame.viewImages (h : SameFrame d d') :
    viewImages d'.symmetry d'.environments = viewImages d.symmetry d.environments := by
  rw [h.symmetry, viewImages_congr _ h.bare]

variable [Trigonometry]

/-- The partner of a view has images, on its own site and away from the center. -/
structure Fits (d : StructureDraft) (v : PairView) : Prop where
  nonempty : viewImages d.symmetry d.environments v ≠ []
  lands : ∀ image ∈ viewImages d.symmetry d.environments v,
    d.encoder.LandsOn d.positionSites v.partnerSite image
  apart : ∀ origin, originOf d.environments v.centerSite = some origin →
    ∀ image ∈ viewImages d.symmetry d.environments v,
      d.symmetry.tolerance.isZero (d.encoder.cell.distance origin image) = false

theorem SameFrame.fits_iff (h : SameFrame d d') : d'.Fits v ↔ d.Fits v := by
  constructor
  · intro ⟨nonempty, lands, apart⟩
    rw [h.viewImages] at nonempty lands apart
    rw [h.encoder, h.positionSites] at lands
    rw [originOf_congr h.bare, h.symmetry, h.encoder] at apart
    exact ⟨nonempty, lands, apart⟩
  · intro ⟨nonempty, lands, apart⟩
    rw [← h.viewImages] at nonempty lands apart
    rw [← h.encoder, ← h.positionSites] at lands
    rw [← originOf_congr h.bare, ← h.symmetry, ← h.encoder] at apart
    exact ⟨nonempty, lands, apart⟩

theorem pairModel_ok_iff {e : Nat} {origin image : Point} {members : List Nat} {m : PairModel} :
    d.pairModel i v e origin members image = .ok m ↔
      d.encoder.LandsOn d.positionSites v.partnerSite image ∧
      d.symmetry.tolerance.isZero (d.encoder.cell.distance origin image) = false ∧
      m = ⟨d.pairClasses.length, e, i.index, v.inverted, origin, image, v.partnerSite,
        d.encoder.cell.distance origin image, members⟩ := by
  unfold pairModel Encoder.LandsOn
  by_cases lands : (d.encoder.encode image).bind (siteAt d.positionSites) = some v.partnerSite
  · cases zero : d.symmetry.tolerance.isZero (d.encoder.cell.distance origin image)
    · simp [lands, zero, eq_comm]
    · simp [lands, zero]
  · simp [lands]

theorem addPairView_cases (i : PairInteraction) {images : List Point}
    (h : viewImages d.symmetry d.environments v = images) :
    (images = [] ∧ ∃ error, addPairView i d v = .error error) ∨
    ∃ e origin, images ≠ [] ∧ environmentOf d.environments v.centerSite = some e ∧
      originOf d.environments v.centerSite = some origin ∧
      addPairView i d v = (do
        let members := List.range' d.pairModels.length images.length
        let models ← images.mapM (d.pairModel i v e origin members)
        return { d with
          environments := d.environments.modify e fun x =>
            { x with pairModels := x.pairModels ++ members }
          pairModels := d.pairModels ++ models
          pairClasses := d.pairClasses ++ [d.pairModels.length] }) := by
  unfold addPairView
  cases he : environmentOf d.environments v.centerSite with
  | none => exact Or.inl ⟨by simp [← h, viewImages, originOf, he], _, rfl⟩
  | some e =>
    obtain ⟨env, henv, _⟩ := environmentOf_site he
    have ho : originOf d.environments v.centerSite = some env.dictionary.source := by
      simp [originOf, he, henv]
    simp only [henv, Option.map_some, Option.getD_some]
    cases hop : d.symmetry.operationBetween v.center env.dictionary.source with
    | none => exact Or.inl ⟨by simp [← h, viewImages, ho, hop], _, rfl⟩
    | some op =>
      have same : partnerImages d.symmetry env.dictionary.source (op.apply v.partner) = images := by
        simp [← h, viewImages, ho, hop]
      simp only [same]
      by_cases empty : images = []
      · refine Or.inl ⟨empty, .emptyClass .pairInteraction i.index, ?_⟩
        rw [if_pos (by simp [empty])]
      · refine Or.inr ⟨e, _, empty, rfl, ho, ?_⟩
        rw [if_neg (by simp [empty])]

theorem addPairView_succeeds_iff : (∃ d', addPairView i d v = .ok d') ↔ d.Fits v := by
  rcases addPairView_cases i (d := d) (v := v) rfl with ⟨empty, error, failed⟩ |
    ⟨e, origin, nonempty, _, ho, made⟩
  · rw [failed]
    constructor
    · rintro ⟨_, h⟩
      cases h
    · intro fits
      exact absurd empty fits.nonempty
  · rw [made]
    simp only [bind_ok_iff, pure_ok_iff]
    constructor
    · rintro ⟨_, models, hmodels, _⟩
      have each := mapM_succeeds_iff.mp ⟨models, hmodels⟩
      refine ⟨nonempty, fun image himage => ?_, fun other hother image himage => ?_⟩
      · obtain ⟨m, hm⟩ := each image himage
        exact (pairModel_ok_iff.mp hm).1
      · obtain ⟨m, hm⟩ := each image himage
        rw [ho, Option.some.injEq] at hother
        exact hother ▸ (pairModel_ok_iff.mp hm).2.1
    · intro fits
      obtain ⟨models, hmodels⟩ := mapM_succeeds_iff.mpr fun image himage =>
        ⟨_, pairModel_ok_iff.mpr ⟨fits.lands image himage, fits.apart _ ho image himage, rfl⟩⟩
      exact ⟨_, models, hmodels, rfl⟩

theorem SameFrame.addPairView (h : addPairView i d v = .ok d') : SameFrame d d' := by
  obtain ⟨_, _, _, _, rfl⟩ := addPairView_ok h
  refine ⟨rfl, rfl, rfl, map_modify_eq ?_⟩
  intro env
  rfl

theorem foldlM_addPair_ok_iff {r : ReferenceData} {interactions : List PairInteraction} :
    interactions.foldlM (addPair r) d = .ok d' ↔ (∀ i ∈ interactions, i.checkSites r = .ok ()) ∧
      (viewsOf interactions).foldlM (fun d x => addPairView x.1 d x.2) d = .ok d' := by
  induction interactions generalizing d with
  | nil => simp [viewsOf]
  | cons i rest ih =>
    have cons : viewsOf (i :: rest) = i.views.map (i, ·) ++ viewsOf rest := rfl
    rw [List.foldlM_cons, cons, List.foldlM_append, List.foldlM_map, List.forall_mem_cons]
    simp only [addPair, bind_ok_iff, ih]
    constructor
    · rintro ⟨d₁, ⟨⟨⟩, checked, first⟩, others, later⟩
      exact ⟨⟨checked, others⟩, d₁, first, later⟩
    · rintro ⟨⟨checked, others⟩, d₁, first, later⟩
      exact ⟨d₁, ⟨(), checked, first⟩, others, later⟩

/-- The pair interactions can be laid down when their sites are there and all their views fit. -/
theorem foldlM_addPair_succeeds_iff {r : ReferenceData} {interactions : List PairInteraction} :
    (∃ d', interactions.foldlM (addPair r) d = .ok d') ↔
      (∀ i ∈ interactions, i.checkSites r = .ok ()) ∧ ∀ x ∈ viewsOf interactions, d.Fits x.2 := by
  simp only [foldlM_addPair_ok_iff, exists_and_left]
  refine and_congr_right fun _ => ⟨?_, fun fits => ?_⟩
  · rintro ⟨d', h⟩
    have done := foldlM_ok_induction
      (motive := fun done d' => SameFrame d d' ∧ ∀ x ∈ done, d.Fits x.2) h
      ⟨.refl d, by simp⟩ ?_
    · exact done.2
    · rintro done x _ t u _ ⟨frame, before⟩ step
      refine ⟨frame.trans (.addPairView step), fun y hy => ?_⟩
      rcases List.mem_append.mp hy with hy | hy
      · exact before y hy
      · rw [List.mem_singleton.mp hy]
        exact frame.fits_iff.mp (addPairView_succeeds_iff.mp ⟨u, step⟩)
  · refine foldlM_succeeds (motive := fun t => SameFrame d t) (.refl d) ?_
    intro x hx t frame
    obtain ⟨u, step⟩ := addPairView_succeeds_iff.mpr (frame.fits_iff.mpr (fits x hx))
    exact ⟨u, step, frame.trans (.addPairView step)⟩

end StructureDraft

end CrystalModel
