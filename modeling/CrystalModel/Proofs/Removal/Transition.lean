import CrystalModel.Proofs.Removal.Path
import CrystalModel.Proofs.Removal.Structure
import CrystalModel.Proofs.Transition.Ring

/-! # Transitions without one of the sites

A transition on other sites is drafted as before, with new numbers of its positions. Metropolis
transitions run between positions of their own sites, kinetic ones wherever their points lie. -/
namespace CrystalModel

open CrystalStructure

variable {r r' : ReferenceData} {config : Config} {gone : Nat} {s s' : CrystalStructure}

section Offers

variable (removed : SiteRemoved r r' gone)

include removed

theorem SiteRemoved.offerOf_eq {group site : Nat} (other : site ≠ gone) :
    r'.offerOf group site = r.offerOf group site := by
  have groups : r'.activeGroup group = r.activeGroup group := by rw [removed.frame]; rfl
  have pairs : r'.activePair = r.activePair := by rw [removed.frame]; rfl
  have occupation : r'.occupationOf site = r.occupationOf site := by
    unfold ReferenceData.occupationOf
    rw [removed.site_eq other, removed.particleSets_eq]
  unfold ReferenceData.offerOf
  rw [groups, occupation, pairs]

theorem SiteRemoved.offersAlong_ok {a : AbstractTransition} {sites : List Nat}
    {states : List PositionOffer} (beside : ∀ site ∈ sites, site ≠ gone)
    (h : r.offersAlong a sites = .ok states) : r'.offersAlong a sites = .ok states := by
  unfold ReferenceData.offersAlong at h ⊢
  split at h
  · cases h
  · next connected =>
    rw [if_neg connected]
    refine mapM_ok_iff.mpr (aligned_imp (mapM_ok_iff.mp h) ?_)
    rintro ⟨group, site⟩ hx offer _ made
    have other := beside site (List.of_mem_zip hx).2
    simp only [removed.offerOf_eq other]
    exact made

theorem SiteRemoved.exchangeRules_eq {a : AbstractTransition} {states : List PositionOffer}
    {metropolis : Bool} :
    exchangeRules r' a states metropolis = exchangeRules r a states metropolis := by
  unfold exchangeRules
  rw [removed.particles_eq]

theorem SiteRemoved.abstractTransition_eq (transition : Nat) :
    r'.abstractTransition? transition = r.abstractTransition? transition := by
  rw [removed.frame]
  rfl

end Offers

namespace CrystalStructure

/-- A position of the cell that belongs to a site. -/
def HasPosition (s : CrystalStructure) (site : Nat) (v : Point) : Prop :=
  ∃ p : Nat, s.encoder.positions[p]? = some v ∧ s.positionSites[p]? = some site

theorem originOf_isSome (environments : List Environment) (site : Nat) :
    (originOf environments site).isSome = (environmentOf environments site).isSome := by
  unfold originOf
  cases he : environmentOf environments site with
  | none => rfl
  | some e =>
    obtain ⟨env, henv, _⟩ := environmentOf_site he
    rw [Option.bind_some, henv]
    rfl

end CrystalStructure

theorem Thinned.hasPosition_iff {site : Nat} {v : Point}
    (thin : Thinned s.encoder s.positionSites gone s'.encoder s'.positionSites) :
    s'.HasPosition site v ↔ site ≠ gone ∧ s.HasPosition site v := by
  unfold HasPosition
  rw [thin.positions, thin.sites]
  refine (kept_places (q := (· != gone)) thin.aligned).trans ?_
  simp

variable [Trigonometry] {d : DraftTransition}

section Kinetic

variable {t : KineticTransition}
  (thin : Thinned s.encoder s.positionSites gone s'.encoder s'.positionSites)

include thin

omit [Trigonometry] in
theorem KineticTransition.encodedPath_beside {a : AbstractTransition} {path : List CrystalVector}
    (h : t.encodedPath config s a = .ok path)
    (stays : ∀ v ∈ path, v.Stays s.positionSites gone) :
    t.encodedPath config s' a = .ok (path.map (·.without s.positionSites gone)) := by
  obtain ⟨size, encoded, openPath⟩ := encodedPath_ok_iff.mp h
  refine encodedPath_ok_iff.mpr ⟨size, thin.encodeAll_eq encoded stays, ?_⟩
  rw [thin.tolerance]
  exact openPath

omit [Trigonometry] in
theorem SiteRemoved.offersAlong_path (removed : SiteRemoved r r' gone) {a : AbstractTransition}
    {path : List CrystalVector} {states : List PositionOffer}
    (stays : ∀ v ∈ path, v.Stays s.positionSites gone)
    (h : r.offersAlong a (path.map fun v => (siteAt s.positionSites v).getD 0) = .ok states) :
    r'.offersAlong a ((path.map (·.without s.positionSites gone)).map
      fun v => (siteAt s'.positionSites v).getD 0) = .ok states := by
  have sites : (path.map (·.without s.positionSites gone)).map
        (fun v => (siteAt s'.positionSites v).getD 0) =
      path.map fun v => (siteAt s.positionSites v).getD 0 := by
    rw [List.map_map]
    refine List.map_congr_left fun v hv => ?_
    rw [Function.comp_apply, thin.siteAt_eq (stays v hv)]
  rw [sites]
  refine removed.offersAlong_ok (fun site hsite => ?_) h
  obtain ⟨v, hv, rfl⟩ := List.mem_map.mp hsite
  obtain ⟨site, hsite, other⟩ := (stays v hv).beside
  rw [siteAt, hsite, Option.getD_some]
  exact other

theorem KineticTransition.mapping_beside {offsets : List Int} {points : List Point} {x : PathDraft}
    (h : t.mapping s.encoder offsets points = .ok x) (stays : x.Stays s.positionSites gone) :
    t.mapping s'.encoder offsets points = .ok (x.without s.positionSites gone) := by
  obtain ⟨drafted, openPath⟩ := mapping_ok_iff.mp h
  exact mapping_ok_iff.mpr ⟨PathDraft.ofPoints_without thin drafted stays,
    CrystalVector.ring_without thin.few stays openPath⟩

/-- A kinetic transition whose points lie on other sites is drafted as before. -/
theorem KineticTransition.draft_beside (removed : SiteRemoved r r' gone)
    (symmetry : s'.symmetry = s.symmetry) (h : t.draft r config s = .ok d)
    (geometry : ∀ v ∈ t.geometry, ¬s.encoder.LandsOn s.positionSites gone v)
    (paths : ∀ x ∈ d.mappings, x.Stays s.positionSites gone) :
    ∃ d', t.draft r' config s' = .ok d' ∧ d.Moved s.positionSites gone d' := by
  obtain ⟨a, path, states, images, found, hpath, offered, rules, made, rfl⟩ := draft_ok_iff.mp h
  have stays := thin.stays_of_encodeAll (encodedPath_ok_iff.mp hpath).2.1 geometry
  simp only [List.mem_mergeSort] at paths
  have made' : List.Forall₂ (fun points x => t.mapping s'.encoder
      (pathOffsets .kinetic a.connectors (states.map (·.unstable))) points = .ok x)
      (s'.symmetry.pathImages t.geometry) (images.map (·.without s.positionSites gone)) := by
    rw [symmetry, List.forall₂_map_right_iff]
    exact aligned_imp made fun points _ x hx mapped => mapping_beside thin mapped (paths x hx)
  refine ⟨_, draft_ok_iff.mpr ⟨a, _, states, _, ?_, encodedPath_beside thin hpath stays,
    removed.offersAlong_path thin stays offered, ?_, made', rfl⟩, rfl, rfl, rfl, ?_, ?_⟩
  · rw [removed.abstractTransition_eq]
    exact found
  · rw [removed.exchangeRules_eq]
    exact rules
  · simpa only [List.mem_mergeSort] using paths
  · intro x'
    simp only [List.mem_mergeSort, List.mem_map]
    exact exists_congr fun x => and_congr_right fun _ => eq_comm

end Kinetic

section Near

variable {t : KineticTransition} {d' : DraftTransition}
  (thin : Thinned s.encoder s.positionSites gone s'.encoder s'.positionSites)
  (h' : t.draft r' config s' = .ok d')

include thin h'

theorem KineticTransition.geometry_near :
    ∀ v ∈ t.geometry, s.encoder.NearOther s.positionSites gone v := by
  obtain ⟨_, _, _, _, _, hpath, _⟩ := draft_ok_iff.mp h'
  exact thin.near_of_encodeAll (encodedPath_ok_iff.mp hpath).2.1

theorem KineticTransition.images_near (symmetry : s'.symmetry = s.symmetry)
    (h : t.draft r config s = .ok d) :
    ∀ x ∈ d.mappings, ∀ v ∈ x.fractional, s.encoder.NearOther s.positionSites gone v := by
  obtain ⟨_, _, _, _, _, _, _, _, made, rfl⟩ := draft_ok_iff.mp h
  obtain ⟨_, _, _, _, _, _, _, _, made', _⟩ := draft_ok_iff.mp h'
  rw [symmetry] at made'
  intro x hx
  obtain ⟨points, hpoints, mapped⟩ := aligned_mem_right made (List.mem_mergeSort.mp hx)
  obtain ⟨x', _, mapped'⟩ := aligned_mem_left made' hpoints
  obtain ⟨same, _⟩ := PathDraft.ofPoints_some (mapping_ok_iff.mp mapped).1
  obtain ⟨same', encoded⟩ := PathDraft.ofPoints_some (mapping_ok_iff.mp mapped').1
  rw [same, ← same']
  exact thin.near_of_encodeAll encoded.path

end Near

namespace MetropolisTransition

variable {t : MetropolisTransition}

section Mapped

variable {offsets : List Int} {found : List PathDraft} (made : List.Forall₂
  (fun pair x => mapping s offsets pair.1 pair.2 = .ok x) (t.pairs s) found)

include made

theorem mapped_of_positions {v w : Point} (hv : s.HasPosition t.site0 v)
    (hw : s.HasPosition t.site1 w) :
    ∃ x ∈ found, PathDraft.ofPoints s.encoder offsets [v, w] = some x := by
  obtain ⟨p, hv, first⟩ := hv
  obtain ⟨q, hw, second⟩ := hw
  have hpair : (p, q) ∈ t.pairs s := mem_pairs.mpr ⟨first, second⟩
  obtain ⟨x, hx, mapped⟩ := aligned_mem_left made hpair
  have points : [p, q].filterMap (s.encoder.positions[·]?) = [v, w] := by simp [hv, hw]
  exact ⟨x, hx, points ▸ mapping_ok_iff.mp mapped⟩

theorem mem_mapped (sound : Sound r s) {x : PathDraft} : x ∈ found ↔
    ∃ v w, s.HasPosition t.site0 v ∧ s.HasPosition t.site1 w ∧
      PathDraft.ofPoints s.encoder offsets [v, w] = some x := by
  constructor
  · intro hx
    obtain ⟨pair, hpair, hx⟩ := aligned_mem_right made hx
    obtain ⟨v, w, hv, hw, points⟩ := points_of_pair sound hpair
    obtain ⟨first, second⟩ := mem_pairs.mp hpair
    exact ⟨v, w, ⟨_, hv, first⟩, ⟨_, hw, second⟩, points ▸ mapping_ok_iff.mp hx⟩
  · rintro ⟨v, w, hv, hw, drafted⟩
    obtain ⟨y, hy, same⟩ := mapped_of_positions made hv hw
    rw [drafted, Option.some.injEq] at same
    exact same ▸ hy

end Mapped

theorem stays_of_draft (sound : Sound r s) (few : s.positionSites.length < 2 ^ 31)
    (first : t.site0 ≠ gone) (second : t.site1 ≠ gone) (h : t.draft r s = .ok d) :
    (∀ x ∈ d.mappings, x.Stays s.positionSites gone) ∧
      ∀ turned, d.reversed s.encoder = some turned →
        ∀ y ∈ turned.mappings, y.Stays s.positionSites gone := by
  have numbered : ∀ {x : PathDraft} {pair : Nat × Nat}, pair ∈ t.pairs s →
      (∀ v ∈ x.path, v.p = Int32.ofNat pair.1 ∨ v.p = Int32.ofNat pair.2) →
      x.Stays s.positionSites gone := by
    intro x pair hpair numbers v hv
    obtain ⟨hfirst, hsecond⟩ := mem_pairs.mp hpair
    rcases numbers v hv with hp | hp
    · exact .of_number few hp hfirst first
    · exact .of_number few hp hsecond second
  have exchanges := draft_exchanges sound h
  constructor
  · intro x hx
    obtain ⟨pair, hpair, _, _, _, _, exchange⟩ := aligned_mem_right exchanges hx
    refine numbered hpair fun v hv => ?_
    have number := List.mem_map_of_mem (f := (·.p)) hv
    rw [exchange.numbers sound.fit] at number
    exact List.mem_pair.mp number
  · intro turned back y hy
    obtain ⟨x, hx, hxy⟩ := aligned_mem_right (DraftTransition.reversed_some back).2.2 hy
    obtain ⟨pair, hpair, _, _, _, _, exchange⟩ := aligned_mem_right exchanges hx
    refine numbered hpair fun v hv => ?_
    have number := List.mem_map_of_mem (f := (·.p)) hv
    rw [exchange.reversed_numbers sound.fit hxy] at number
    exact (List.mem_pair.mp number).symm

omit [Trigonometry] in
theorem checkSites_beside
    (origins : ∀ site ≠ gone, originOf s'.environments site = originOf s.environments site)
    (first : t.site0 ≠ gone) (second : t.site1 ≠ gone) (h : t.checkSites s = .ok ()) :
    t.checkSites s' = .ok () := by
  unfold checkSites at h ⊢
  rw [forM_ok_iff] at h ⊢
  intro site hsite
  have other : site ≠ gone := by
    rcases List.mem_pair.mp hsite with rfl | rfl
    · exact first
    · exact second
  have before := h site hsite
  rw [← originOf_isSome] at before ⊢
  rwa [origins site other]

section Beside

variable (sound : Sound r s) (sound' : Sound r' s')
  (thin : Thinned s.encoder s.positionSites gone s'.encoder s'.positionSites)
  (first : t.site0 ≠ gone) (second : t.site1 ≠ gone)

include sound sound' thin first second

theorem mapped_beside {offsets : List Int} {found : List PathDraft}
    (made : List.Forall₂ (fun pair x => mapping s offsets pair.1 pair.2 = .ok x) (t.pairs s) found)
    (paths : ∀ x ∈ found, x.Stays s.positionSites gone) : ∃ found',
      List.Forall₂ (fun pair x => mapping s' offsets pair.1 pair.2 = .ok x) (t.pairs s') found' ∧
      ∀ x', x' ∈ found' ↔ ∃ x ∈ found, x' = x.without s.positionSites gone := by
  have moved : ∀ {v w : Point}, s'.HasPosition t.site0 v → s'.HasPosition t.site1 w →
      ∃ x ∈ found, PathDraft.ofPoints s'.encoder offsets [v, w] =
        some (x.without s.positionSites gone) := by
    intro v w hv hw
    obtain ⟨x, hx, drafted⟩ := mapped_of_positions made (thin.hasPosition_iff.mp hv).2
      (thin.hasPosition_iff.mp hw).2
    exact ⟨x, hx, PathDraft.ofPoints_without thin drafted (paths x hx)⟩
  have each : ∀ pair ∈ t.pairs s', ∃ x', mapping s' offsets pair.1 pair.2 = .ok x' := by
    intro pair hpair
    obtain ⟨v, w, hv, hw, points⟩ := points_of_pair sound' hpair
    obtain ⟨hfirst, hsecond⟩ := mem_pairs.mp hpair
    obtain ⟨x, _, drafted⟩ := moved ⟨_, hv, hfirst⟩ ⟨_, hw, hsecond⟩
    exact ⟨_, mapping_ok_iff.mpr (points.symm ▸ drafted)⟩
  obtain ⟨found', made'⟩ := mapM_succeeds_iff.mpr each
  rw [mapM_ok_iff] at made'
  refine ⟨found', made', fun x' => ?_⟩
  rw [mem_mapped made' sound']
  constructor
  · rintro ⟨v, w, hv, hw, drafted⟩
    obtain ⟨x, hx, same⟩ := moved hv hw
    rw [drafted, Option.some.injEq] at same
    exact ⟨x, hx, same⟩
  · rintro ⟨x, hx, rfl⟩
    obtain ⟨v, w, hv, hw, drafted⟩ := (mem_mapped made sound).mp hx
    exact ⟨v, w, thin.hasPosition_iff.mpr ⟨first, hv⟩, thin.hasPosition_iff.mpr ⟨second, hw⟩,
      PathDraft.ofPoints_without thin drafted (paths x hx)⟩

/-- An exchange between other sites is drafted as before. -/
theorem draft_beside (removed : SiteRemoved r r' gone)
    (origins : ∀ site ≠ gone, originOf s'.environments site = originOf s.environments site)
    (h : t.draft r s = .ok d) :
    ∃ d', t.draft r' s' = .ok d' ∧ d.Moved s.positionSites gone d' := by
  obtain ⟨paths, _⟩ := stays_of_draft sound thin.few first second h
  obtain ⟨a, states, found, habstract, two, checked, offered, rules, nonempty, made, rfl⟩ :=
    draft_ok_iff.mp h
  obtain ⟨found', made', mappings⟩ := mapped_beside sound sound' thin first second made paths
  have some' : found' ≠ [] := by
    obtain ⟨x, hx⟩ := List.exists_mem_of_ne_nil found nonempty
    exact List.ne_nil_of_mem ((mappings _).mpr ⟨x, hx, rfl⟩)
  refine ⟨_, draft_ok_iff.mpr ⟨a, states, found', ?_, two,
    checkSites_beside origins first second checked, removed.offersAlong_ok ?_ offered, ?_, some',
    made', rfl⟩, rfl, rfl, rfl, paths, mappings⟩
  · rw [removed.abstractTransition_eq]
    exact habstract
  · intro site hsite
    rcases List.mem_pair.mp hsite with rfl | rfl
    · exact first
    · exact second
  · rw [removed.exchangeRules_eq]
    exact rules

end Beside

end MetropolisTransition

abbrev activeJumps (r : ReferenceData) : List KineticTransition :=
  r.kineticTransitions.filter (·.isActive)

omit [Trigonometry] in
theorem SiteRemoved.activeJumps_eq (removed : SiteRemoved r r' gone) :
    activeJumps r' = activeJumps r := by
  unfold activeJumps
  rw [removed.frame]

/-- The points of the paths that kinetic transitions run on, authored, moved by symmetry, and
reversed where a transition needs an appended inverse. -/
inductive JumpPoint (r : ReferenceData) (config : Config) (s : CrystalStructure) : Point → Prop
  | geometry {t v} (ht : t ∈ activeJumps r) (hv : v ∈ t.geometry) : JumpPoint r config s v
  | image {t d x v} (ht : t ∈ activeJumps r) (drafted : t.draft r config s = .ok d)
      (hx : x ∈ d.mappings) (hv : v ∈ x.fractional) : JumpPoint r config s v
  | reversed {t d turned x v} (ht : t ∈ activeJumps r) (drafted : t.draft r config s = .ok d)
      (alone : d.ownLinks = .ok none) (back : d.reversed s.encoder = some turned)
      (hx : x ∈ turned.mappings) (hv : v ∈ x.fractional) : JumpPoint r config s v

namespace TransitionNetwork

variable (removed : SiteRemoved r r' gone) (few : s.positionSites.length < 2 ^ 31)
  (h : CrystalStructure.build r config = .ok s) (h' : CrystalStructure.build r' config = .ok s')

include removed few h h'

/-- Kinetic transitions keep their mappings when none of their points was on the site. -/
theorem jump_beside {t : KineticTransition}
    (drafted : t.draft r config s = .ok d)
    (geometry : ∀ v ∈ t.geometry, ¬s.encoder.LandsOn s.positionSites gone v)
    (images : ∀ x ∈ d.mappings, ∀ v ∈ x.fractional, ¬s.encoder.LandsOn s.positionSites gone v) :
    ∃ d', t.draft r' config s' = .ok d' ∧ d.Moved s.positionSites gone d' := by
  obtain ⟨symmetry, thin, _⟩ := framed_beside removed few h h'
  obtain ⟨_, _, _, sound⟩ := KineticTransition.draft_ok drafted
  refine KineticTransition.draft_beside thin removed symmetry drafted geometry fun x hx => ?_
  exact thin.stays_of_encodeAll (sound x hx).1.path (images x hx)

theorem build_beside (places : r'.checkPlaces = .ok ())
    (built : ∃ n, build r config s = .ok n)
    (beside : ∀ v, JumpPoint r config s v → ¬s.encoder.LandsOn s.positionSites gone v) :
    ∃ n, build r' config s' = .ok n := by
  obtain ⟨symmetry, thin, origins⟩ := framed_beside removed few h h'
  have sound := sound_of_build h
  have sound' := sound_of_build h'
  have jumps := removed.activeJumps_eq
  obtain ⟨_, kinetic, metropolis⟩ := build_succeeds_iff.mp built
  refine build_succeeds_iff.mpr ⟨places, fun t ht => ?_, fun t ht => ?_⟩
  · replace ht : t ∈ activeJumps r := jumps ▸ ht
    obtain ⟨d, drafted, linked⟩ := kinetic t ht
    obtain ⟨d', drafted', moved⟩ := jump_beside removed few h h' drafted
      (fun v hv => beside v (.geometry ht hv)) fun x hx v hv => beside v (.image ht drafted hx hv)
    refine ⟨d', drafted', moved.linkable thin linked fun turned alone back y hy => ?_⟩
    have encoded := ((KineticTransition.draft_ok drafted).2.2.2.reversed back y hy).1
    exact thin.stays_of_encodeAll encoded.path fun v hv =>
      beside v (.reversed ht drafted alone back hy hv)
  · rw [removed.metropolis] at ht
    obtain ⟨active, unnamed⟩ := List.mem_filter.mp ht
    simp only [MetropolisTransition.mentions, Bool.not_eq_true', Bool.or_eq_false_iff,
      beq_eq_false_iff_ne] at unnamed
    obtain ⟨d, drafted, linked⟩ := metropolis t active
    obtain ⟨d', drafted', moved⟩ := MetropolisTransition.draft_beside sound sound' thin
      unnamed.1 unnamed.2 removed origins drafted
    obtain ⟨_, reversed⟩ := MetropolisTransition.stays_of_draft sound thin.few unnamed.1 unnamed.2
      drafted
    exact ⟨d', drafted', moved.linkable thin linked fun turned _ back => reversed turned back⟩

/-- Once they are built, all points of jumps are close to positions that stayed, unless one at a
position of the site has moved over to a neighbor. -/
theorem jumps_near_of_build (built : ∃ n, build r' config s' = .ok n)
    (clear : ∀ v, JumpPoint r config s v → s.encoder.LandsOn s.positionSites gone v →
      ¬s.encoder.NearOther s.positionSites gone v) :
    ∀ v, JumpPoint r config s v → s.encoder.NearOther s.positionSites gone v := by
  obtain ⟨symmetry, thin, _⟩ := framed_beside removed few h h'
  obtain ⟨_, kinetic, _⟩ := build_succeeds_iff.mp built
  have jumps := removed.activeJumps_eq
  intro v hv
  cases hv with
  | geometry ht hv =>
    obtain ⟨d', drafted', _⟩ := kinetic _ (jumps ▸ ht)
    exact KineticTransition.geometry_near thin drafted' v hv
  | image ht drafted hx hv =>
    obtain ⟨d', drafted', _⟩ := kinetic _ (jumps ▸ ht)
    exact KineticTransition.images_near thin drafted' symmetry drafted _ hx v hv
  | reversed ht drafted alone back hy hv =>
    obtain ⟨d', drafted', linked⟩ := kinetic _ (jumps ▸ ht)
    have geometry := KineticTransition.geometry_near thin drafted'
    have images := KineticTransition.images_near thin drafted' symmetry drafted
    obtain ⟨_, again, moved⟩ := jump_beside removed few h h' drafted
      (fun w hw lands => clear w (.geometry ht hw) lands (geometry w hw))
      fun x hx w hw lands => clear w (.image ht drafted hx hw) lands (images x hx w hw)
    rw [drafted', Except.ok.injEq] at again
    subst again
    exact moved.turned_near thin alone back linked _ hy v hv

end TransitionNetwork

end CrystalModel
