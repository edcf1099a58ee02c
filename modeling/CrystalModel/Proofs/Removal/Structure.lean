import CrystalModel.Proofs.Removal.Data
import CrystalModel.Proofs.Structure.Buildable
import CrystalModel.Proofs.Structure.Reciprocity

/-! # Structures without one of their sites

The positions, environments and views of the other sites are those of before. What may be missing
is a lattice position where the removed site was, and what was seen there. -/
namespace CrystalModel

open CrystalStructure

namespace PositionList

def without (l : PositionList) (gone : Nat) : PositionList where
  points := ((l.points.zip l.sites).filter (·.2 != gone)).map (·.1)
  sites := l.sites.filter (· != gone)

variable {l m : PositionList} {gone site : Nat} {t : Tolerance} {v : Point}

theorem without_append (aligned : l.points.length = l.sites.length) :
    PositionList.without ⟨l.points ++ [v], l.sites ++ [site]⟩ gone =
      if site = gone then l.without gone
      else ⟨(l.without gone).points ++ [v], (l.without gone).sites ++ [site]⟩ := by
  unfold without
  by_cases here : site = gone <;> simp [List.zip_append aligned, here]

theorem addImage_without (aligned : l.points.length = l.sites.length) (other : site ≠ gone)
    (h : addImage t site l v = .ok m) :
    addImage t site (l.without gone) v = .ok (m.without gone) := by
  unfold addImage at h ⊢
  cases place : t.placeOf l.points v with
  | some p => simp [place] at h
  | none =>
    rw [place] at h
    cases h
    have free : t.placeOf (l.without gone).points v = none := by
      refine List.findIdx?_eq_none_iff.mpr fun u hu => ?_
      obtain ⟨z, hz, rfl⟩ := List.mem_map.mp hu
      exact List.findIdx?_eq_none_iff.mp place _ (List.of_mem_zip (List.mem_filter.mp hz).1).1
    rw [free, without_append aligned, if_neg other]

theorem addImage_gone (aligned : l.points.length = l.sites.length)
    (h : addImage t gone l v = .ok m) : m.without gone = l.without gone := by
  unfold addImage at h
  split at h
  · cases h
  · cases h
    rw [without_append aligned, if_pos rfl]

theorem addImage_aligned (aligned : l.points.length = l.sites.length)
    (h : addImage t site l v = .ok m) : m.points.length = m.sites.length := by
  unfold addImage at h
  split at h
  · cases h
  · cases h
    simp [aligned]

variable {s : Symmetry} {r r' : ReferenceData}

theorem addSite_without (gone : Nat) {x : Site} (aligned : l.points.length = l.sites.length)
    (h : addSite s r l x = .ok m) : m.points.length = m.sites.length ∧
      if x.index = gone then m.without gone = l.without gone
      else addSite s r (l.without gone) x = .ok (m.without gone) := by
  unfold addSite at h ⊢
  split at h
  · next set =>
    rw [if_pos set]
    refine foldlM_ok_induction (motive := fun done m => m.points.length = m.sites.length ∧
      if x.index = gone then m.without gone = l.without gone
      else done.foldlM (addImage s.tolerance x.index) (l.without gone) = .ok (m.without gone))
      h ⟨aligned, ?_⟩ ?_
    · split <;> rfl
    · rintro done v _ m₁ m₂ _ ⟨aligned₁, before⟩ step
      refine ⟨addImage_aligned aligned₁ step, ?_⟩
      by_cases here : x.index = gone
      · rw [if_pos here] at before ⊢
        rw [here] at step
        exact (addImage_gone aligned₁ step).trans before
      · rw [if_neg here] at before ⊢
        exact foldlM_concat_ok before (addImage_without aligned₁ here step)
  · cases h

/-- Without a site the others make the positions that they made beside it. -/
theorem ofSites_without (h : ofSites s r = .ok l) (sets : r'.particleSets = r.particleSets)
    (sites : r'.sites.filter (·.isActive) =
      (r.sites.filter (·.isActive)).filter fun x => x.index != gone) :
    ofSites s r' = .ok (l.without gone) := by
  have same : addSite s r' = addSite s r := by
    funext l x
    rw [addSite, addSite, sets]
  unfold ofSites
  rw [same, sites]
  have done := foldlM_ok_induction (motive := fun done l => l.points.length = l.sites.length ∧
    (done.filter fun x => x.index != gone).foldlM (addSite s r) empty = .ok (l.without gone))
    h ⟨rfl, rfl⟩ ?_
  · exact done.2
  · rintro done x _ l₁ l₂ _ ⟨aligned, before⟩ step
    obtain ⟨aligned', next⟩ := addSite_without gone aligned step
    refine ⟨aligned', ?_⟩
    by_cases here : x.index = gone
    · rw [if_pos here] at next
      simpa [here, next] using before
    · rw [if_neg here] at next
      have kept : (done ++ [x]).filter (fun x => x.index != gone) =
          done.filter (fun x => x.index != gone) ++ [x] := by
        simp [here]
      rw [kept]
      exact foldlM_concat_ok before next

end PositionList

theorem PairInteraction.views_beside {i : PairInteraction} {v : PairView} {gone : Nat}
    (hv : v ∈ i.views) (beside : i.mentions gone = false) :
    v.centerSite ≠ gone ∧ v.partnerSite ≠ gone := by
  simp only [mentions, Bool.or_eq_false_iff, beq_eq_false_iff_ne] at beside
  unfold views at hv
  simp only at hv
  split at hv
  · rw [List.mem_singleton.mp hv]
    exact beside
  · rcases List.mem_pair.mp hv with rfl | rfl
    · exact beside
    · exact beside.symm

namespace CrystalStructure

open StructureDraft

def pairsBeside (r : ReferenceData) (gone : Nat) : List PairInteraction :=
  (activePairs r).filter (!·.mentions gone)

def groupsBeside (r : ReferenceData) (gone : Nat) : List GroupInteraction :=
  (r.groupInteractions.filter (·.isActive)).filter (·.centerSite != gone)

theorem activePairs_beside {r r' : ReferenceData} {gone : Nat} (removed : SiteRemoved r r' gone) :
    activePairs r' = pairsBeside r gone := removed.pairs

theorem activeGroups_beside {r r' : ReferenceData} {gone : Nat} (removed : SiteRemoved r r' gone) :
    r'.groupInteractions.filter (·.isActive) = groupsBeside r gone := removed.groups

theorem mem_viewsOf_beside {r : ReferenceData} {gone : Nat} {x : PairInteraction × PairView} :
    x ∈ viewsOf (pairsBeside r gone) ↔
      x ∈ viewsOf (activePairs r) ∧ x.1.mentions gone = false := by
  simp only [viewsOf, pairsBeside, List.mem_flatMap, List.mem_filter, List.mem_map]
  constructor
  · rintro ⟨i, ⟨hi, beside⟩, v, hv, rfl⟩
    exact ⟨⟨i, hi, v, hv, rfl⟩, by simpa using beside⟩
  · rintro ⟨⟨i, hi, v, hv, rfl⟩, beside⟩
    exact ⟨i, ⟨hi, by simpa using beside⟩, v, hv, rfl⟩

theorem originOf_environments {sites : List Site} {environment : Site → Environment}
    (index : ∀ x, (environment x).site = x.index) (site : Nat) :
    originOf (sites.map environment) site =
      (sites.find? (·.index == site)).map fun x => (environment x).dictionary.source := by
  induction sites with
  | nil => rfl
  | cons x rest ih =>
    unfold originOf environmentOf at ih ⊢
    rw [List.map_cons, List.findIdx?_cons, List.find?_cons, index]
    cases x.index == site with
    | true => simp
    | false => simpa [Option.bind_map, Function.comp_def] using ih

section Removed

variable {r r' : ReferenceData} {gone : Nat} {y : Symmetry} {l : PositionList}
  (removed : SiteRemoved r r' gone)

include removed

theorem checkSites_beside {i : PairInteraction} (hi : i ∈ pairsBeside r gone)
    (checked : i.checkSites r = .ok ()) : i.checkSites r' = .ok () := by
  have beside := (List.mem_filter.mp hi).2
  simp only [PairInteraction.mentions, Bool.not_eq_true', Bool.or_eq_false_iff,
    beq_eq_false_iff_ne] at beside
  unfold PairInteraction.checkSites at checked ⊢
  rw [forM_ok_iff] at checked ⊢
  intro site hsite
  have other : site ≠ gone := by
    rcases List.mem_pair.mp hsite with rfl | rfl
    · exact beside.1
    · exact beside.2
  have before := checked site hsite
  rwa [← removed.site_eq other] at before

theorem thinned_draft (aligned : l.points.length = l.sites.length)
    (few : l.sites.length < 2 ^ 31) :
    Thinned (draft y r.cell r l).encoder (draft y r.cell r l).positionSites gone
      (draft y r'.cell r' (l.without gone)).encoder
      (draft y r'.cell r' (l.without gone)).positionSites := by
  exact ⟨rfl, removed.cell_eq, aligned, few, rfl, rfl⟩

variable (placed : r.sites.map (·.index) = List.range r.sites.length)

include placed

theorem originOf_beside {site : Nat} (other : site ≠ gone) :
    originOf (draft y r'.cell r' (l.without gone)).environments site =
      originOf (draft y r.cell r l).environments site := by
  simp only [draft]
  rw [originOf_environments fun _ => rfl, originOf_environments fun _ => rfl,
    removed.activeSites placed, List.find?_filter]
  congr 2
  funext x
  by_cases here : x.index = site <;> simp [here, other]

theorem viewImages_beside {v : PairView} (other : v.centerSite ≠ gone) :
    viewImages y (draft y r'.cell r' (l.without gone)).environments v =
      viewImages y (draft y r.cell r l).environments v := by
  rw [viewImages, viewImages, originOf_beside removed placed other]

/-- A site sees what it saw in the views of those interactions that do not name the other one. -/
theorem seesOf_beside {site : Nat} {target : Point} :
    SeesOf (activePairs r') y (draft y r'.cell r' (l.without gone)).environments site target ↔
      SeesOf (pairsBeside r gone) y (draft y r.cell r l).environments site target := by
  unfold SeesOf
  rw [activePairs_beside removed]
  refine exists_congr fun x => and_congr_right fun hx => and_congr_right fun _ => ?_
  obtain ⟨hx, beside⟩ := mem_viewsOf_beside.mp hx
  have other := (PairInteraction.views_beside (mem_activeViews.mp hx).2.2 beside).1
  rw [viewImages_beside removed placed other]

end Removed

theorem site_ne_of_sees {r : ReferenceData} {gone site : Nat} {s : Symmetry}
    {environments : List Environment} {target : Point}
    (h : SeesOf (pairsBeside r gone) s environments site target) : site ≠ gone := by
  obtain ⟨x, hx, rfl, _⟩ := h
  obtain ⟨hx, beside⟩ := mem_viewsOf_beside.mp hx
  exact (PairInteraction.views_beside (mem_activeViews.mp hx).2.2 beside).1

/-- Every partner of a cluster is still close to a point that its center sees. -/
def ClustersSeen (r : ReferenceData) (gone : Nat) (s : Symmetry)
    (environments : List Environment) : Prop :=
  ∀ i ∈ groupsBeside r gone, ∀ origin, originOf environments i.centerSite = some origin →
    ∀ sequence ∈ s.sequenceImages origin i.geometry, ∀ partner ∈ sequence, ∃ target,
      SeesOf (pairsBeside r gone) s environments i.centerSite target ∧
      s.tolerance.closePoints target partner

def Targeted (r : ReferenceData) (gone : Nat) (s : Symmetry) (environments : List Environment)
    (e : Encoder) (sites : List Nat) (v : Point) : Prop :=
  ∃ (p : Nat) (point : Point) (site : Nat) (origin : Point) (op : Operation) (target : Point),
    e.positions[p]? = some point ∧ sites[p]? = some site ∧
    originOf environments site = some origin ∧ s.operationBetween origin point = some op ∧
    SeesOf (pairsBeside r gone) s environments site target ∧ v = op.apply target

/-- What is still seen is close to a position that is still there. -/
def TargetsStay (r : ReferenceData) (gone : Nat) (s : Symmetry) (environments : List Environment)
    (e : Encoder) (sites : List Nat) : Prop :=
  ∀ v, Targeted r gone s environments e sites v → e.NearOther sites gone v

section Consistent

variable [Trigonometry] {r r' : ReferenceData} {gone : Nat} {y : Symmetry} {l : PositionList}

theorem fits_beside (removed : SiteRemoved r r' gone)
    (placed : r.sites.map (·.index) = List.range r.sites.length)
    (thin : Thinned (draft y r.cell r l).encoder (draft y r.cell r l).positionSites gone
      (draft y r'.cell r' (l.without gone)).encoder
      (draft y r'.cell r' (l.without gone)).positionSites)
    {v : PairView} (center : v.centerSite ≠ gone) (partner : v.partnerSite ≠ gone)
    (fits : (draft y r.cell r l).Fits v) :
    (draft y r'.cell r' (l.without gone)).Fits v := by
  have images := viewImages_beside removed placed center (y := y) (l := l)
  refine ⟨?_, fun image himage => ?_, fun origin horigin image himage => ?_⟩
  · exact images ▸ fits.nonempty
  · have lands := fits.lands image (images ▸ himage)
    obtain ⟨code, hcode, hsite⟩ := Option.bind_eq_some_iff.mp lands
    have beside : ¬(draft y r.cell r l).encoder.LandsOn (draft y r.cell r l).positionSites gone
        image := by
      intro there
      rw [Encoder.LandsOn, lands, Option.some.injEq] at there
      exact partner there
    have stays := thin.stays hcode beside
    rw [Encoder.LandsOn, thin.encode_eq hcode stays, Option.bind_some, thin.siteAt_eq stays, hsite]
  · rw [originOf_beside removed placed center] at horigin
    rw [thin.cell]
    exact fits.apart origin horigin image (images ▸ himage)

variable (removed : SiteRemoved r r' gone)
  (placed : r.sites.map (·.index) = List.range r.sites.length)

include removed placed

theorem clustersSeen_of_consistent (fits' : Consistent r' (draft y r'.cell r' (l.without gone))) :
    ClustersSeen r gone y (draft y r.cell r l).environments := by
  intro i hi origin horigin sequence hs partner hp
  obtain ⟨origin', group⟩ := fits'.groups i (activeGroups_beside removed ▸ hi)
  have other : i.centerSite ≠ gone := by simpa using (List.mem_filter.mp hi).2
  have same := group.center
  rw [originOf_beside removed placed other, horigin, Option.some.injEq] at same
  subst same
  obtain ⟨target, sees, close⟩ := group.partners sequence hs partner hp
  exact ⟨target, (seesOf_beside removed placed).mp sees, close⟩

variable (aligned : l.points.length = l.sites.length) (few : l.sites.length < 2 ^ 31)

include aligned few

theorem targetsStay_of_consistent (fits' : Consistent r' (draft y r'.cell r' (l.without gone))) :
    TargetsStay r gone y (draft y r.cell r l).environments (draft y r.cell r l).encoder
      (draft y r.cell r l).positionSites := by
  have thin := thinned_draft removed aligned few (y := y)
  rintro v ⟨p, point, site, origin, op, target, hpoint, hsite, horigin, hop, sees, rfl⟩
  have other := site_ne_of_sees sees
  obtain ⟨p', hpoint', hsite'⟩ := (kept_places (q := (· != gone)) aligned).mpr
    ⟨by simpa using other, p, hpoint, hsite⟩
  obtain ⟨origin', op', center, hop', reached⟩ := fits'.cells p' point site hpoint' hsite'
  rw [originOf_beside removed placed other, horigin, Option.some.injEq] at center
  subst center
  obtain rfl := Option.some.inj (hop.symm.trans hop')
  exact thin.encode_isSome_iff.mp (reached target ((seesOf_beside removed placed).mpr sees))

/-- Consistent interactions stay consistent as far as nothing that they use has gone. -/
theorem consistent_beside (fits : Consistent r (draft y r.cell r l))
    (seen : ClustersSeen r gone y (draft y r.cell r l).environments)
    (stay : TargetsStay r gone y (draft y r.cell r l).environments (draft y r.cell r l).encoder
      (draft y r.cell r l).positionSites) :
    Consistent r' (draft y r'.cell r' (l.without gone)) := by
  have thin := thinned_draft removed aligned few (y := y)
  refine ⟨fun i hi => ?_, fun x hx => ?_, fun i hi => ?_, ?_⟩
  · have hi' := activePairs_beside removed ▸ hi
    exact checkSites_beside removed hi' (fits.sites i (List.mem_filter.mp hi').1)
  · obtain ⟨hx, beside⟩ := mem_viewsOf_beside.mp (activePairs_beside removed ▸ hx)
    obtain ⟨center, partner⟩ := PairInteraction.views_beside (mem_activeViews.mp hx).2.2 beside
    exact fits_beside removed placed thin center partner (fits.views x hx)
  · have hi' := activeGroups_beside removed ▸ hi
    obtain ⟨active, center⟩ := List.mem_filter.mp hi'
    obtain ⟨origin, group⟩ := fits.groups i active
    refine ⟨origin, { group with center := ?_, partners := fun sequence hs partner hp => ?_ }⟩
    · rw [originOf_beside removed placed (by simpa using center)]
      exact group.center
    · obtain ⟨target, sees, close⟩ := seen i hi' origin group.center sequence hs partner hp
      exact ⟨target, (seesOf_beside removed placed).mpr sees, close⟩
  · intro p point site hpoint hsite
    obtain ⟨other, q, hpoint, hsite⟩ := (kept_places (q := (· != gone)) aligned).mp
      ⟨p, hpoint, hsite⟩
    obtain ⟨origin, op, center, hop, _⟩ := fits.cells q point site hpoint hsite
    refine ⟨origin, op, ?_, hop, fun target sees => ?_⟩
    · rw [originOf_beside removed placed (by simpa using other)]
      exact center
    · exact thin.encode_isSome_iff.mpr (stay _ ⟨q, point, site, origin, op, target, hpoint, hsite,
        center, hop, (seesOf_beside removed placed).mp sees, rfl⟩)

end Consistent

section Build

variable [Trigonometry] {r r' : ReferenceData} {config : Config} {gone : Nat}
  {s s' : CrystalStructure}

variable (removed : SiteRemoved r r' gone) (few : s.positionSites.length < 2 ^ 31)

include removed few

theorem framed_beside (h : build r config = .ok s) (h' : build r' config = .ok s') :
    s'.symmetry = s.symmetry ∧
      Thinned s.encoder s.positionSites gone s'.encoder s'.positionSites ∧
      ∀ site ≠ gone, originOf s'.environments site = originOf s.environments site := by
  obtain ⟨l, symmetry, positions, framed, _⟩ := framed_of_build h
  obtain ⟨l', symmetry', positions', framed', _⟩ := framed_of_build h'
  have placed := (ReferenceData.checkPlaces_ok_iff.mp (sound_of_build h).places).numbered.sites
  have same : s'.symmetry = s.symmetry := by
    rw [removed.symmetry_eq, symmetry, Except.ok.injEq] at symmetry'
    exact symmetry'.symm
  have left := PositionList.ofSites_without positions removed.particleSets_eq
    (removed.activeSites placed)
  rw [same, left, Except.ok.injEq] at positions'
  subst positions'
  have aligned := (PositionList.sound_of_ofSites positions).aligned
  rw [framed.positionSites] at few
  have thin := thinned_draft removed aligned few (y := s.symmetry)
  refine ⟨same, ?_, fun site other => ?_⟩
  · rw [framed.encoder, framed.positionSites, framed'.encoder, framed'.positionSites, same]
    exact thin
  · rw [originOf_congr framed.bare, originOf_congr framed'.bare, same]
    exact originOf_beside removed placed other

theorem targetsStay_of_beside (h : build r config = .ok s)
    (beside : ∀ v, Targeted r gone s.symmetry s.environments s.encoder s.positionSites v →
      ¬s.encoder.LandsOn s.positionSites gone v) :
    TargetsStay r gone s.symmetry s.environments s.encoder s.positionSites := by
  obtain ⟨l, _, positions, framed, fits⟩ := framed_of_build h
  have aligned := (PositionList.sound_of_ofSites positions).aligned
  rw [framed.positionSites] at few
  have thin := thinned_draft removed aligned few (y := s.symmetry)
  rw [← framed.encoder, ← framed.positionSites] at thin
  intro v hv
  have apart := beside v hv
  obtain ⟨p, point, site, origin, op, target, hpoint, hsite, center, hop, ⟨x, hx, seen⟩, rfl⟩ := hv
  rw [framed.encoder] at hpoint
  rw [framed.positionSites] at hsite
  obtain ⟨origin', op', center', hop', reached⟩ := fits.cells p point site hpoint hsite
  rw [originOf_congr framed.bare] at center
  obtain rfl := Option.some.inj (center.symm.trans center')
  obtain rfl := Option.some.inj (hop.symm.trans hop')
  rw [viewImages_congr _ framed.bare] at seen
  have encoded := reached target ⟨x, (mem_viewsOf_beside.mp hx).1, seen⟩
  obtain ⟨code, hcode⟩ := Option.ne_none_iff_exists'.mp encoded
  rw [← framed.encoder] at hcode
  exact thin.near_of_beside hcode apart

/-- Without the site a structure can still be built as long as every cluster sees its partners and
every target is a lattice position. -/
theorem build_beside_iff (h : build r config = .ok s) (places : r'.checkPlaces = .ok ()) :
    (∃ s', build r' config = .ok s') ↔ ClustersSeen r gone s.symmetry s.environments ∧
      TargetsStay r gone s.symmetry s.environments s.encoder s.positionSites := by
  obtain ⟨l, symmetry, positions, framed, fits⟩ := framed_of_build h
  have placed := (ReferenceData.checkPlaces_ok_iff.mp (sound_of_build h).places).numbered.sites
  have group := (removed.symmetry_eq _).trans symmetry
  have valid : r'.cell.isValid := by
    rw [removed.cell_eq]
    exact (build_succeeds_iff.mp ⟨s, h⟩).2.1
  have left := PositionList.ofSites_without positions removed.particleSets_eq
    (removed.activeSites placed)
  have aligned := (PositionList.sound_of_ofSites positions).aligned
  rw [framed.positionSites] at few
  have conditions : ClustersSeen r gone s.symmetry s.environments ∧
        TargetsStay r gone s.symmetry s.environments s.encoder s.positionSites ↔
      ClustersSeen r gone s.symmetry (draft s.symmetry r.cell r l).environments ∧
        TargetsStay r gone s.symmetry (draft s.symmetry r.cell r l).environments
          (draft s.symmetry r.cell r l).encoder (draft s.symmetry r.cell r l).positionSites := by
    unfold ClustersSeen TargetsStay Targeted
    rw [seesOf_congr framed.bare, originOf_congr framed.bare, framed.encoder,
      framed.positionSites]
  rw [conditions, build_succeeds_iff]
  constructor
  · rintro ⟨_, _, y, l', hy, hl', fits'⟩
    rw [group, Except.ok.injEq] at hy
    subst hy
    rw [left, Except.ok.injEq] at hl'
    subst hl'
    exact ⟨clustersSeen_of_consistent removed placed fits',
      targetsStay_of_consistent removed placed aligned few fits'⟩
  · rintro ⟨seen, stay⟩
    exact ⟨places, valid, s.symmetry, _, group, left,
      consistent_beside removed placed aligned few fits seen stay⟩

end Build

end CrystalStructure

end CrystalModel
