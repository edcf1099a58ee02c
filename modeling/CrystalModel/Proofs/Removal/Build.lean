import CrystalModel.Proofs.Energy.Build
import CrystalModel.Proofs.Removal.Structure
import CrystalModel.Proofs.Removal.Transition

/-! # Builds without one of the sites

A site that is removed takes the objects with it that name it. Whatever relied on its positions by
coordinates alone is still active after that, and the next build fails on it. -/
namespace CrystalModel

open CrystalStructure

/-! ## The energies

The tables of the pairs do not know about sites. The table of a cluster reads the species that its
partners may hold off their sites, which have to be there. -/

section Energies

variable {r r' : ReferenceData} {config : Config} {gone : Nat} {s s' : CrystalStructure}

theorem SiteRemoved.occupantsOf_eq (removed : SiteRemoved r r' gone) {site : Nat}
    (other : site ≠ gone) : r'.occupantsOf site = r.occupantsOf site := by
  unfold ReferenceData.occupantsOf
  rw [removed.site_eq other, removed.particles_eq, removed.particleSets_eq]

theorem Thinned.siteAt_beside {e e' : Encoder} {sites sites' : List Nat} {v : Point}
    {code : CrystalVector} (thin : Thinned e sites gone e' sites') (h : e.encode v = some code)
    (beside : ¬e.LandsOn sites gone v) : ∃ code' site, e'.encode v = some code' ∧ site ≠ gone ∧
      siteAt sites code = some site ∧ siteAt sites' code' = some site := by
  have stays := thin.stays h beside
  obtain ⟨site, hsite, other⟩ := stays.beside
  exact ⟨_, site, thin.encode_eq h stays, other, hsite, (thin.siteAt_eq stays).trans hsite⟩

section Layout

variable (removed : SiteRemoved r r' gone)
  (thin : Thinned s.encoder s.positionSites gone s'.encoder s'.positionSites)

include removed thin

theorem partnerParticles_beside {partner : Point} {particles : List Nat}
    (beside : ¬s.encoder.LandsOn s.positionSites gone partner)
    (h : GroupInteraction.partnerParticles r s partner = .ok particles) :
    GroupInteraction.partnerParticles r' s' partner = .ok particles := by
  unfold GroupInteraction.partnerParticles at h ⊢
  cases code : s.encoder.encode partner with
  | none => simp [code] at h
  | some v =>
    obtain ⟨v', site, code', other, hsite, hsite'⟩ := thin.siteAt_beside code beside
    simp only [code, hsite, Option.getD_some] at h
    simp only [code', hsite', Option.getD_some, removed.occupantsOf_eq other]
    exact h

theorem layout_beside {i : GroupInteraction} {layout : GroupLayout}
    (symmetry : s'.symmetry = s.symmetry) (center : i.centerSite ≠ gone)
    (beside : ∀ partner ∈ i.geometry, ¬s.encoder.LandsOn s.positionSites gone partner)
    (h : i.layout r s = .ok layout) : i.layout r' s' = .ok layout := by
  unfold GroupInteraction.layout at h ⊢
  rw [removed.site_eq center, removed.occupantsOf_eq center, symmetry]
  cases found : r.sites[i.centerSite]? with
  | none => simp [found] at h
  | some site =>
    simp only [found] at h
    obtain ⟨particles, each, h⟩ := bind_ok_iff.mp h
    refine bind_ok_iff.mpr ⟨particles, mapM_ok_iff.mpr ?_, h⟩
    refine aligned_imp (mapM_ok_iff.mp each) fun partner hpartner ps _ made => ?_
    exact partnerParticles_beside removed thin (beside partner hpartner) made

omit removed in
theorem partners_near_of_layout {i : GroupInteraction} {layout : GroupLayout}
    (h : i.layout r' s' = .ok layout) :
    ∀ partner ∈ i.geometry, s.encoder.NearOther s.positionSites gone partner := by
  unfold GroupInteraction.layout at h
  split at h
  · cases h
  · obtain ⟨particles, each, _⟩ := bind_ok_iff.mp h
    intro partner hpartner
    obtain ⟨ps, made⟩ := mapM_succeeds_iff.mp ⟨particles, each⟩ partner hpartner
    refine thin.encode_isSome_iff.mp fun absent => ?_
    simp [GroupInteraction.partnerParticles, absent] at made

end Layout

namespace Energetics

variable [Trigonometry] (removed : SiteRemoved r r' gone)
  (few : s.positionSites.length < 2 ^ 31) (h : CrystalStructure.build r config = .ok s)
  (h' : CrystalStructure.build r' config = .ok s')

include removed few h h'

theorem build_beside (built : ∃ e, build r config s = .ok e)
    (beside : ∀ i ∈ groupsBeside r gone, ∀ partner ∈ i.geometry,
      ¬s.encoder.LandsOn s.positionSites gone partner) :
    ∃ e, build r' config s' = .ok e := by
  obtain ⟨symmetry, thin, _⟩ := framed_beside removed few h h'
  obtain ⟨pairs, groups⟩ := (build_succeeds_iff h).mp built
  refine (build_succeeds_iff h').mpr ⟨fun x hx => ?_, fun i hi => ?_⟩
  · rw [removed.particles_eq]
    exact pairs x (mem_viewsOf_beside.mp (activePairs_beside removed ▸ hx)).1
  · have hi' := activeGroups_beside removed ▸ hi
    obtain ⟨active, center⟩ := List.mem_filter.mp hi'
    obtain ⟨layout, table, laid, filled⟩ := groups i active
    exact ⟨layout, table, layout_beside removed thin symmetry (by simpa using center)
      (beside i hi') laid, filled⟩

theorem partners_near_of_build (built : ∃ e, build r' config s' = .ok e) :
    ∀ i ∈ groupsBeside r gone, ∀ partner ∈ i.geometry,
      s.encoder.NearOther s.positionSites gone partner := by
  obtain ⟨_, thin, _⟩ := framed_beside removed few h h'
  intro i hi
  obtain ⟨layout, _, laid, _⟩ :=
    ((build_succeeds_iff h').mp built).2 i (activeGroups_beside removed ▸ hi)
  exact partners_near_of_layout thin laid

end Energetics

end Energies

/-! ## The whole build -/

section Uses

variable [Trigonometry]

def ReferenceData.Builds (r : ReferenceData) (config : Config) : Prop :=
  ∃ s e n, CrystalStructure.build r config = .ok s ∧ Energetics.build r config s = .ok e ∧
    TransitionNetwork.build r config s = .ok n

/-- The points that active objects use without naming the site: targets of pairs, partners of
clusters, and all that jumps run on. -/
inductive UsedPoint (r : ReferenceData) (config : Config) (s : CrystalStructure) (gone : Nat) :
    Point → Prop
  | target {v} (targeted : Targeted r gone s.symmetry s.environments s.encoder s.positionSites v) :
      UsedPoint r config s gone v
  | partner {i v} (hi : i ∈ groupsBeside r gone) (hv : v ∈ i.geometry) : UsedPoint r config s gone v
  | jump {v} (run : JumpPoint r config s v) : UsedPoint r config s gone v

/-- What does not name the site relies on it nevertheless: a cluster has its pair from an
interaction that names it, or a point that is used lies on one of its positions. -/
def ReliesOn (r : ReferenceData) (config : Config) (s : CrystalStructure) (gone : Nat) : Prop :=
  ¬ClustersSeen r gone s.symmetry s.environments ∨
    ∃ v, UsedPoint r config s gone v ∧ s.encoder.LandsOn s.positionSites gone v

end Uses

section Removed

variable [Trigonometry] {r r' : ReferenceData} {config : Config} {gone : Nat}
  {s : CrystalStructure}

variable (removed : SiteRemoved r r' gone) (few : s.positionSites.length < 2 ^ 31)
  (places : r'.checkPlaces = .ok ()) (h : CrystalStructure.build r config = .ok s)

include removed few places h

/-- All builds still succeed when nothing relies on the site. -/
theorem SiteRemoved.builds (energies : ∃ e, Energetics.build r config s = .ok e)
    (transitions : ∃ n, TransitionNetwork.build r config s = .ok n)
    (free : ¬ReliesOn r config s gone) : r'.Builds config := by
  obtain ⟨seen, beside⟩ := not_or.mp free
  have apart : ∀ v, UsedPoint r config s gone v → ¬s.encoder.LandsOn s.positionSites gone v :=
    fun v used lands => beside ⟨v, used, lands⟩
  have stay := targetsStay_of_beside removed few h fun v hv => apart v (.target hv)
  obtain ⟨s', h'⟩ := (build_beside_iff removed few h places).mpr ⟨not_not.mp seen, stay⟩
  obtain ⟨e, he⟩ := Energetics.build_beside removed few h h' energies
    fun i hi partner hpartner => apart partner (.partner hi hpartner)
  obtain ⟨n, hn⟩ := TransitionNetwork.build_beside removed few h h' places transitions
    fun v hv => apart v (.jump hv)
  exact ⟨s', e, n, h', he, hn⟩

/-- When they do, every point that is used is close to a position of another site, and so no point
lies on a position of the site that has no such neighbor. -/
theorem SiteRemoved.free_of_builds (clear : ∀ v, UsedPoint r config s gone v →
      s.encoder.LandsOn s.positionSites gone v → ¬s.encoder.NearOther s.positionSites gone v)
    (built : r'.Builds config) : ¬ReliesOn r config s gone := by
  obtain ⟨s', e, n, h', he, hn⟩ := built
  obtain ⟨seen, stay⟩ := (build_beside_iff removed few h places).mp ⟨s', h'⟩
  have near : ∀ v, UsedPoint r config s gone v → s.encoder.NearOther s.positionSites gone v := by
    intro v used
    cases used with
    | target targeted => exact stay v targeted
    | partner hi hv => exact Energetics.partners_near_of_build removed few h h' ⟨e, he⟩ _ hi v hv
    | jump run =>
      exact TransitionNetwork.jumps_near_of_build removed few h h' ⟨n, hn⟩
        (fun w hw => clear w (.jump hw)) v run
  rintro (unseen | ⟨v, used, lands⟩)
  · exact unseen seen
  · exact clear v used lands (near v used)

end Removed

namespace DataStore

section After

variable [Trigonometry] {r : ReferenceData} {t : Tolerance} {config : Config} {gone : Nat}
  {s : CrystalStructure} {report : ResolutionReport} {after : DataStore}

/-- After a removal no active object names the site. All builds that succeeded before it succeed
again when nothing relied on the site otherwise, and do not when something did, unless its points
have other positions close to them. -/
theorem builds_after_removal (h : CrystalStructure.build r config = .ok s)
    (energies : ∃ e, Energetics.build r config s = .ok e)
    (transitions : ∃ n, TransitionNetwork.build r config s = .ok n)
    (few : s.positionSites.length < 2 ^ 31)
    (applied : (DataStore.mk r .standard t).apply (.removeSite gone) = (.ok report, after)) :
    after.data.mentionsSite gone = false ∧
    (¬ReliesOn r config s gone → after.data.Builds config) ∧
    ((∀ v, UsedPoint r config s gone v → s.encoder.LandsOn s.positionSites gone v →
      ¬s.encoder.NearOther s.positionSites gone v) →
        ReliesOn r config s gone → ¬after.data.Builds config) := by
  have removed := SiteRemoved.of_apply applied
  have fit := ReferenceData.checkPlaces_ok_iff.mp (sound_of_build h).places
  have places : after.data.checkPlaces = .ok () := by
    have kept := (step (s := ⟨r, .standard, t⟩) rfl fit (.removeSite gone)).2.1
    rw [applied] at kept
    exact ReferenceData.checkPlaces_ok_iff.mpr kept
  refine ⟨?_, ?_, ?_⟩
  · obtain ⟨changed, _⟩ := apply_ok applied
    obtain ⟨edited, conflicts, hedit, found, final, _⟩ := changed_ok rfl changed
    have settled := settled_removeSite (DataChange.apply_ok_iff.mp hedit) found final
    have none_left := DataChange.conflicts_removeSite settled.2
    refine Bool.eq_false_iff.mpr fun named => ?_
    rw [if_pos named] at none_left
    cases none_left
  · exact removed.builds few places h energies transitions
  · intro clear relies built
    exact removed.free_of_builds few places h clear built relies

end After

open ReferenceData in
theorem chain_unbuildable : ∃ report after, @Builds rightAngle chain plainConfig ∧
    (DataStore.mk chain .standard (.ofWidth 1.0e-6)).apply (.removeSite 0) = (.ok report, after) ∧
    after.data.mentionsSite 0 = false ∧ ¬@Builds rightAngle after.data plainConfig := by
  have found : (do
      let s ← @CrystalStructure.build rightAngle chain plainConfig
      let e ← Energetics.build chain plainConfig s
      let n ← @TransitionNetwork.build rightAngle chain plainConfig s
      return (s, e, n) : Except BuildError
        (CrystalStructure × Energetics × TransitionNetwork)).toOption.any
      fun (s, _, _) => decide (s.positionSites = [0] ∧
        (s.encoder.encode ⟨0.0, 0.0, 0.0⟩).bind (siteAt s.positionSites) = some 0) := by
    decide +kernel
  obtain ⟨⟨s, e, n⟩, h, facts⟩ := ok_of_any found
  obtain ⟨_, structured, h⟩ := bind_ok_iff.mp h
  obtain ⟨_, energies, h⟩ := bind_ok_iff.mp h
  obtain ⟨_, network, h⟩ := bind_ok_iff.mp h
  cases pure_ok_iff.mp h
  obtain ⟨sites, lands⟩ := of_decide_eq_true facts
  obtain ⟨unnamed, _, fails⟩ := @builds_after_removal rightAngle chain (.ofWidth 1.0e-6)
    plainConfig 0 s _ _ structured ⟨e, energies⟩ ⟨n, network⟩ (by simp [sites]) rfl
  refine ⟨_, _, ⟨s, e, n, structured, energies, network⟩, rfl, unnamed, fails ?_ ?_⟩
  · rintro v - - ⟨p, u, other, -, hother, apart, -⟩
    rw [sites] at hother
    exact apart (List.mem_singleton.mp (List.mem_of_getElem? hother))
  · have start : @JumpPoint rightAngle chain plainConfig s ⟨0.0, 0.0, 0.0⟩ :=
      @JumpPoint.geometry rightAngle _ _ _ _ _ List.mem_cons_self List.mem_cons_self
    exact Or.inr ⟨_, @UsedPoint.jump rightAngle _ _ _ _ _ start, lands⟩

end DataStore

end CrystalModel
