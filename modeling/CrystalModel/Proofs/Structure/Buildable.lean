import CrystalModel.Proofs.Structure.Classes

/-! # When a structure can be built

A build succeeds exactly when every active interaction is consistent with the positions that the
sites make, whatever the numbers of the models turn out to be. -/
namespace CrystalModel

open CrystalStructure

/-- A site sees a point: it is an image of the partner of an interaction around the site. -/
def SeesOf (interactions : List PairInteraction) (s : Symmetry) (environments : List Environment)
    (site : Nat) (target : Point) : Prop :=
  ∃ x ∈ StructureDraft.viewsOf interactions, x.2.centerSite = site ∧
    target ∈ viewImages s environments x.2

theorem seesOf_congr {interactions : List PairInteraction} {y : Symmetry}
    {environments others : List Environment}
    (h : environments.map Environment.bare = others.map Environment.bare) :
    SeesOf interactions y environments = SeesOf interactions y others := by
  unfold SeesOf
  rw [viewImages_congr y h]

namespace StructureDraft

variable {start d d' : StructureDraft} {i : GroupInteraction} {site : Nat} {target : Point}

def HasTarget (d : StructureDraft) (site : Nat) (target : Point) : Prop :=
  ∃ e env id m, environmentOf d.environments site = some e ∧ d.environments[e]? = some env ∧
    id ∈ env.pairModels ∧ d.pairModels[id]? = some m ∧ m.target = target

theorem PairsLaid.hasTarget_iff {interactions : List PairInteraction}
    (laid : PairsLaid start (viewsOf interactions) d) : d.HasTarget site target ↔
      SeesOf interactions start.symmetry start.environments site target := by
  constructor
  · rintro ⟨e, env, id, m, he, henv, hid, hm, rfl⟩
    obtain ⟨m', hm', _, x, hx, _, center, seen⟩ := laid.known e env id henv hid
    rw [hm, Option.some.injEq] at hm'
    subst hm'
    rw [environmentOf_congr laid.bare] at he
    exact ⟨x, hx, environmentOf_inj center he, seen⟩
  · rintro ⟨x, hx, rfl, seen⟩
    obtain ⟨e, env, id, m, he, henv, hid, hm, _, same⟩ := laid.listed x hx target seen
    rw [← environmentOf_congr laid.bare] at he
    exact ⟨e, env, id, m, he, henv, hid, hm, same⟩

theorem GroupsLaid.hasTarget_iff (laid : GroupsLaid start d) :
    d.HasTarget site target ↔ start.HasTarget site target := by
  have models : d.pairModels = start.pairModels := by rw [laid.frame]
  unfold HasTarget
  rw [environmentOf_congr laid.bare, models]
  constructor
  · rintro ⟨e, env, id, m, he, henv, hid, hm, same⟩
    have pairs := laid.pairs e
    rw [henv] at pairs
    obtain ⟨old, hold, hpairs⟩ := Option.map_eq_some_iff.mp pairs.symm
    exact ⟨e, old, id, m, he, hold, hpairs ▸ hid, hm, same⟩
  · rintro ⟨e, env, id, m, he, henv, hid, hm, same⟩
    have pairs := laid.pairs e
    rw [henv] at pairs
    obtain ⟨new, hnew, hpairs⟩ := Option.map_eq_some_iff.mp pairs
    exact ⟨e, new, id, m, he, hnew, hpairs ▸ hid, hm, same⟩

section Groups

/-- A cluster that models can be made of: one to eight partners with consistent images, each of
which a pair model leads to. -/
structure GroupFits (s : Symmetry) (environments : List Environment) (sees : Nat → Point → Prop)
    (i : GroupInteraction) (origin : Point) : Prop where
  center : originOf environments i.centerSite = some origin
  size : i.geometry ≠ [] ∧ i.geometry.length ≤ 8
  nonempty : s.sequenceImages origin i.geometry ≠ []
  midpoints : ∀ sequence ∈ s.sequenceImages origin i.geometry,
    sameMidpoints s (origin :: i.geometry) (origin :: sequence)
  partners : ∀ sequence ∈ s.sequenceImages origin i.geometry, ∀ partner ∈ sequence,
    ∃ target, sees i.centerSite target ∧ s.tolerance.closePoints target partner

theorem partnerCoding_succeeds_iff {e : Nat} {env : Environment} {partners : List Point}
    (he : environmentOf d.environments site = some e) (henv : d.environments[e]? = some env) :
    (∃ places, d.partnerCoding i e partners = .ok places) ↔ ∀ partner ∈ partners,
      ∃ target, d.HasTarget site target ∧ d.symmetry.tolerance.closePoints target partner := by
  unfold partnerCoding
  rw [mapM_succeeds_iff]
  refine forall₂_congr fun partner _ => ?_
  simp only [henv, Option.map_some, Option.getD_some]
  constructor
  · rintro ⟨place, found⟩
    split at found
    · next hplace =>
      have any := Option.isSome_of_eq_some hplace
      rw [List.findIdx?_isSome, List.any_map, List.any_eq_true] at any
      obtain ⟨id, hid, close⟩ := any
      cases hm : d.pairModels[id]? with
      | none => simp [hm] at close
      | some m =>
        simp only [Function.comp_apply, hm, Option.map_some, Option.getD_some] at close
        exact ⟨m.target, ⟨e, env, id, m, he, henv, hid, hm, rfl⟩, close⟩
    · cases found
  · rintro ⟨target, ⟨e', env', id, m, he', henv', hid, hm, rfl⟩, close⟩
    rw [he, Option.some.injEq] at he'
    subst he'
    rw [henv, Option.some.injEq] at henv'
    subst henv'
    split
    · exact ⟨_, rfl⟩
    · next empty =>
      have far := List.findIdx?_eq_none_iff.mp empty _ (List.mem_map_of_mem hid)
      simp [hm, close] at far

theorem groupModel_succeeds_iff {e : Nat} {origin : Point} {members : List Nat}
    {sequence : List Point} : (∃ m, d.groupModel i e origin members sequence = .ok m) ↔
      sameMidpoints d.symmetry (origin :: i.geometry) (origin :: sequence) ∧
      ∃ places, d.partnerCoding i e sequence = .ok places := by
  unfold groupModel
  cases sameMidpoints d.symmetry (origin :: i.geometry) (origin :: sequence) with
  | false => simp
  | true =>
    rw [if_neg (by simp)]
    simp only [bind_ok_iff, pure_ok_iff, true_and]
    constructor
    · rintro ⟨_, places, coded, _⟩
      exact ⟨places, coded⟩
    · rintro ⟨places, coded⟩
      exact ⟨_, places, coded, rfl⟩

theorem addGroup_succeeds_iff_of_center {e : Nat} {env : Environment}
    (he : environmentOf d.environments i.centerSite = some e)
    (henv : d.environments[e]? = some env) : (∃ d', d.addGroup i = .ok d') ↔
      (i.geometry ≠ [] ∧ i.geometry.length ≤ 8) ∧
      d.symmetry.sequenceImages env.dictionary.source i.geometry ≠ [] ∧
      ∀ sequence ∈ d.symmetry.sequenceImages env.dictionary.source i.geometry,
        sameMidpoints d.symmetry (env.dictionary.source :: i.geometry)
          (env.dictionary.source :: sequence) ∧
        ∃ places, d.partnerCoding i e sequence = .ok places := by
  have size : (i.geometry ≠ [] ∧ i.geometry.length ≤ 8) ↔
      ¬(i.geometry.isEmpty ∨ 8 < i.geometry.length) := by
    rw [not_or, List.isEmpty_iff, Nat.not_lt]
  unfold addGroup
  simp only [he, henv, Option.map_some, Option.getD_some, List.isEmpty_iff, size]
  split
  · next outside => simp [outside]
  · next inside =>
    split
    · next empty => simp [empty]
    · next nonempty =>
      rw [and_iff_right inside, and_iff_right nonempty]
      simp only [bind_ok_iff, pure_ok_iff]
      constructor
      · rintro ⟨_, models, made, _⟩ sequence hs
        exact groupModel_succeeds_iff.mp (mapM_succeeds_iff.mp ⟨models, made⟩ sequence hs)
      · intro each
        obtain ⟨models, made⟩ := mapM_succeeds_iff.mpr fun sequence hs =>
          groupModel_succeeds_iff.mpr (each sequence hs)
        exact ⟨_, models, made, rfl⟩

theorem addGroup_succeeds_iff : (∃ d', d.addGroup i = .ok d') ↔
    ∃ origin, GroupFits d.symmetry d.environments d.HasTarget i origin := by
  cases he : environmentOf d.environments i.centerSite with
  | none =>
    constructor
    · rintro ⟨_, h⟩
      simp [addGroup, he] at h
    · rintro ⟨origin, fits⟩
      have center := fits.center
      simp [originOf, he] at center
  | some e =>
    obtain ⟨env, henv, _⟩ := environmentOf_site he
    have center : originOf d.environments i.centerSite = some env.dictionary.source := by
      simp [originOf, he, henv]
    rw [addGroup_succeeds_iff_of_center he henv]
    simp only [partnerCoding_succeeds_iff he henv]
    constructor
    · rintro ⟨size, nonempty, each⟩
      exact ⟨_, center, size, nonempty, fun sequence hs => (each sequence hs).1,
        fun sequence hs => (each sequence hs).2⟩
    · rintro ⟨origin, fits⟩
      have same := fits.center
      rw [center, Option.some.injEq] at same
      subst same
      exact ⟨fits.size, fits.nonempty, fun sequence hs =>
        ⟨fits.midpoints sequence hs, fits.partners sequence hs⟩⟩

theorem GroupsLaid.groupFits_iff (laid : GroupsLaid start d) {origin : Point} :
    GroupFits d.symmetry d.environments d.HasTarget i origin ↔
      GroupFits start.symmetry start.environments start.HasTarget i origin := by
  have symmetry : d.symmetry = start.symmetry := by rw [laid.frame]
  have targets : d.HasTarget = start.HasTarget := by
    funext site target
    exact propext laid.hasTarget_iff
  rw [symmetry, targets]
  constructor
  · intro fits
    exact { fits with center := originOf_congr laid.bare ▸ fits.center }
  · intro fits
    exact { fits with center := originOf_congr laid.bare ▸ fits.center }

theorem foldlM_addGroup_succeeds_iff {interactions : List GroupInteraction}
    (ungrouped : ∀ env ∈ start.environments, env.groupModels = []) :
    (∃ d, interactions.foldlM addGroup start = .ok d) ↔ ∀ i ∈ interactions,
      ∃ origin, GroupFits start.symmetry start.environments start.HasTarget i origin := by
  have none_yet : [].foldlM addGroup start = .ok start := rfl
  have first := groupsLaid_of_foldlM none_yet ungrouped
  constructor
  · rintro ⟨d, h⟩
    have done := foldlM_ok_induction (motive := fun done d => GroupsLaid start d ∧ ∀ i ∈ done,
      ∃ origin, GroupFits start.symmetry start.environments start.HasTarget i origin) h
      ⟨first, by simp⟩ ?_
    · exact done.2
    · rintro done i _ t u _ ⟨laid, before⟩ step
      refine ⟨laid.addGroup step, fun j hj => ?_⟩
      rcases List.mem_append.mp hj with hj | hj
      · exact before j hj
      · rw [List.mem_singleton.mp hj]
        exact (addGroup_succeeds_iff.mp ⟨u, step⟩).imp fun _ => laid.groupFits_iff.mp
  · intro fits
    refine foldlM_succeeds (motive := fun t => GroupsLaid start t) first ?_
    intro i hi t laid
    obtain ⟨u, step⟩ := addGroup_succeeds_iff.mpr
      ((fits i hi).imp fun _ => laid.groupFits_iff.mpr)
    exact ⟨u, step, laid.addGroup step⟩

end Groups

section Cells

variable {p : Nat} {point : Point}

theorem cellPosition_succeeds_iff {e : Nat} {env : Environment}
    (hsite : d.positionSites[p]? = some site) (he : environmentOf d.environments site = some e)
    (henv : d.environments[e]? = some env)
    (known : ∀ id ∈ env.pairModels, ∃ m, d.pairModels[id]? = some m) :
    (∃ c, d.cellPosition p point = .ok c) ↔
      ∃ op, d.symmetry.operationBetween env.dictionary.source point = some op ∧
        ∀ target, d.HasTarget site target → d.encoder.encode (op.apply target) ≠ none := by
  have reached : ∀ {op id m}, d.pairModels[id]? = some m →
      ((∃ target, d.pairTarget p op id = .ok target) ↔
        d.encoder.encode (op.apply m.target) ≠ none) := by
    intro op id m hm
    unfold pairTarget
    simp only [hm, Option.map_some, Option.getD_some]
    cases d.encoder.encode (op.apply m.target) <;> simp
  unfold cellPosition
  simp only [hsite, he, henv, Option.map_some, Option.getD_some]
  cases d.symmetry.operationBetween env.dictionary.source point with
  | none => simp
  | some op =>
    simp only [bind_ok_iff, pure_ok_iff, Option.some.injEq, exists_eq_left']
    constructor
    · rintro ⟨_, targets, htargets, _⟩ target ⟨e', env', id, m, he', henv', hid, hm, rfl⟩
      rw [he, Option.some.injEq] at he'
      subst he'
      rw [henv, Option.some.injEq] at henv'
      subst henv'
      exact (reached hm).mp (mapM_succeeds_iff.mp ⟨targets, htargets⟩ id hid)
    · intro encoded
      obtain ⟨targets, htargets⟩ := mapM_succeeds_iff.mpr fun id hid => by
        obtain ⟨m, hm⟩ := known id hid
        exact (@reached op _ _ hm).mpr (encoded _ ⟨e, env, id, m, he, henv, hid, hm, rfl⟩)
      exact ⟨_, targets, htargets, rfl⟩

variable {paired grouped : StructureDraft} {interactions : List PairInteraction}

theorem laid_cell_succeeds_iff (pairs : PairsLaid start (viewsOf interactions) paired)
    (groups : GroupsLaid paired grouped) (hsite : start.positionSites[p]? = some site)
    {origin : Point} (center : originOf start.environments site = some origin) :
    (∃ c, grouped.cellPosition p point = .ok c) ↔
      ∃ op, start.symmetry.operationBetween origin point = some op ∧
        ∀ target, SeesOf interactions start.symmetry start.environments site target →
          start.encoder.encode (op.apply target) ≠ none := by
  have symmetry : grouped.symmetry = start.symmetry := by rw [groups.frame, pairs.frame]
  have encoder : grouped.encoder = start.encoder := by rw [groups.frame, pairs.frame]
  have sites : grouped.positionSites = start.positionSites := by rw [groups.frame, pairs.frame]
  have models : grouped.pairModels = paired.pairModels := by rw [groups.frame]
  rw [← originOf_congr (groups.bare.trans pairs.bare)] at center
  obtain ⟨e, he, hsource⟩ := Option.bind_eq_some_iff.mp center
  obtain ⟨env, henv, rfl⟩ := Option.map_eq_some_iff.mp hsource
  have known : ∀ id ∈ env.pairModels, ∃ m, grouped.pairModels[id]? = some m := by
    intro id hid
    have listed := groups.pairs e
    rw [henv] at listed
    obtain ⟨old, hold, same⟩ := Option.map_eq_some_iff.mp listed.symm
    obtain ⟨m, hm, _⟩ := pairs.known e old id hold (same ▸ hid)
    exact ⟨m, models ▸ hm⟩
  rw [cellPosition_succeeds_iff (sites ▸ hsite) he henv known, symmetry, encoder]
  simp only [groups.hasTarget_iff, pairs.hasTarget_iff]

end Cells

theorem PairsLaid.groupFits_iff {interactions : List PairInteraction} {origin : Point}
    (laid : PairsLaid start (viewsOf interactions) d) :
    GroupFits d.symmetry d.environments d.HasTarget i origin ↔
      GroupFits start.symmetry start.environments
        (SeesOf interactions start.symmetry start.environments) i origin := by
  have symmetry : d.symmetry = start.symmetry := by rw [laid.frame]
  have targets : d.HasTarget = SeesOf interactions start.symmetry start.environments := by
    funext site target
    exact propext laid.hasTarget_iff
  rw [symmetry, targets]
  constructor
  · intro fits
    exact { fits with center := originOf_congr laid.bare ▸ fits.center }
  · intro fits
    exact { fits with center := originOf_congr laid.bare ▸ fits.center }

end StructureDraft

namespace CrystalStructure

open StructureDraft

variable {r : ReferenceData} {config : Config}

theorem originOf_draft {s : Symmetry} {l : PositionList} (h : PositionList.ofSites s r = .ok l)
    {p site : Nat} (hsite : l.sites[p]? = some site) :
    ∃ origin, originOf (draft s r.cell r l).environments site = some origin := by
  obtain ⟨x, hx, rfl⟩ := (PositionList.sound_of_ofSites h).active site (List.mem_of_getElem? hsite)
  obtain ⟨e, he⟩ : ∃ e, environmentOf (draft s r.cell r l).environments x.index = some e :=
    environmentOf_isSome (List.mem_map_of_mem hx)
  obtain ⟨env, henv, _⟩ := environmentOf_site he
  refine ⟨env.dictionary.source, ?_⟩
  simp only [originOf, he, Option.bind_some, henv, Option.map_some]

variable [Trigonometry]

/-- The interactions fit the positions: every view can be laid down, every cluster is made of
points that its center sees, and from every position all targets are lattice positions. -/
structure Consistent (r : ReferenceData) (start : StructureDraft) : Prop where
  sites : ∀ i ∈ activePairs r, i.checkSites r = .ok ()
  views : ∀ x ∈ viewsOf (activePairs r), start.Fits x.2
  groups : ∀ i ∈ r.groupInteractions.filter (·.isActive), ∃ origin,
    GroupFits start.symmetry start.environments
      (SeesOf (activePairs r) start.symmetry start.environments) i origin
  cells : ∀ (p : Nat) (point : Point) (site : Nat), start.encoder.positions[p]? = some point →
    start.positionSites[p]? = some site → ∃ origin op,
      originOf start.environments site = some origin ∧
      start.symmetry.operationBetween origin point = some op ∧
      ∀ target, SeesOf (activePairs r) start.symmetry start.environments site target →
        start.encoder.encode (op.apply target) ≠ none

/-- Over given positions everything that is built on them succeeds for consistent interactions. -/
theorem consistent_iff {s : Symmetry} {l : PositionList} (h : PositionList.ofSites s r = .ok l) :
    Consistent r (draft s r.cell r l) ↔ ∃ paired grouped cellPositions,
      (activePairs r).foldlM (addPair r) (draft s r.cell r l) = .ok paired ∧
      (r.groupInteractions.filter (·.isActive)).foldlM addGroup paired = .ok grouped ∧
      (grouped.encoder.positions.zipIdx.mapM fun (point, position) =>
        grouped.cellPosition position point) = .ok cellPositions := by
  have aligned := (PositionList.sound_of_ofSites h).aligned
  constructor
  · intro fits
    obtain ⟨paired, hpaired⟩ := foldlM_addPair_succeeds_iff.mpr ⟨fits.sites, fits.views⟩
    have pairs := pairsLaid_of_foldlM hpaired draft_empty
    obtain ⟨grouped, hgrouped⟩ := (foldlM_addGroup_succeeds_iff pairs.ungrouped).mpr
      fun i hi => (fits.groups i hi).imp fun _ => pairs.groupFits_iff.mpr
    have groups := groupsLaid_of_foldlM hgrouped pairs.ungrouped
    have positions : grouped.encoder.positions = l.points := by
      rw [groups.frame, pairs.frame]
      rfl
    obtain ⟨cells, hcells⟩ := mapM_succeeds_iff.mpr fun (x : Point × Nat)
        (hx : x ∈ grouped.encoder.positions.zipIdx) => by
      have hpoint := List.mem_zipIdx_iff_getElem?.mp hx
      rw [positions] at hpoint
      have within := (List.getElem?_eq_some_iff.mp hpoint).1
      have hsite := List.getElem?_eq_getElem (aligned ▸ within)
      obtain ⟨origin, op, center, reached⟩ := fits.cells x.2 x.1 _ hpoint hsite
      exact (laid_cell_succeeds_iff pairs groups hsite center).mpr ⟨op, reached⟩
    exact ⟨paired, grouped, cells, hpaired, hgrouped, hcells⟩
  · rintro ⟨paired, grouped, cells, hpaired, hgrouped, hcells⟩
    have pairs := pairsLaid_of_foldlM hpaired draft_empty
    have groups := groupsLaid_of_foldlM hgrouped pairs.ungrouped
    obtain ⟨sites, views⟩ := foldlM_addPair_succeeds_iff.mp ⟨paired, hpaired⟩
    refine ⟨sites, views, fun i hi => ?_, fun p point site hpoint hsite => ?_⟩
    · exact ((foldlM_addGroup_succeeds_iff pairs.ungrouped).mp ⟨grouped, hgrouped⟩ i hi).imp
        fun _ => pairs.groupFits_iff.mp
    · have positions : grouped.encoder.positions = l.points := by
        rw [groups.frame, pairs.frame]
        rfl
      obtain ⟨origin, center⟩ := originOf_draft h hsite
      have made := mapM_succeeds_iff.mp ⟨cells, hcells⟩ (point, p)
        (List.mem_zipIdx_iff_getElem?.mpr (positions ▸ hpoint))
      obtain ⟨op, reached⟩ := (laid_cell_succeeds_iff pairs groups hsite center).mp made
      exact ⟨origin, op, center, reached⟩

/-- The structure of reference data can be built exactly when the data are in place, have a cell
and a space group, and their sites make positions that all active interactions fit. -/
theorem build_succeeds_iff : (∃ s, build r config = .ok s) ↔
    r.checkPlaces = .ok () ∧ r.cell.isValid ∧ ∃ s l,
      r.symmetry (.ofWidth config.geometryTolerance) = .ok s ∧ PositionList.ofSites s r = .ok l ∧
      Consistent r (draft s r.cell r l) := by
  constructor
  · rintro ⟨s, h⟩
    obtain ⟨l, paired, grouped, cells, places, symmetry, positions, hpaired, hgrouped, hcells, _⟩ :=
      build_ok h
    have valid : r.cell.isValid := by
      obtain ⟨_, _, h⟩ := bind_ok_iff.mp h
      obtain ⟨_, _, h⟩ := bind_ok_iff.mp h
      split at h
      · cases h
      · next valid => simpa using valid
    exact ⟨places, valid, s.symmetry, l, symmetry, positions, (consistent_iff positions).mpr
      ⟨paired, grouped, cells, hpaired, hgrouped, mapM_ok_iff.mpr hcells⟩⟩
  · rintro ⟨places, valid, s, l, symmetry, positions, fits⟩
    obtain ⟨paired, grouped, cells, hpaired, hgrouped, hcells⟩ := (consistent_iff positions).mp fits
    have pairs := (viewClasses_of_foldlM hpaired rfl rfl).closed.check
    have laid := pairsLaid_of_foldlM hpaired draft_empty
    have groups := groupsLaid_of_foldlM hgrouped laid.ungrouped
    have clusters : paired.groupModels = [] ∧ paired.groupClasses = [] := by
      rw [laid.frame]
      exact ⟨rfl, rfl⟩
    have closed := (groupClasses_of_foldlM hgrouped clusters.1 clusters.2).closed.check
    have same : grouped.pairModels = paired.pairModels ∧
        grouped.pairClasses = paired.pairClasses := by
      rw [groups.frame]
      exact ⟨rfl, rfl⟩
    rw [← same.1, ← same.2] at pairs
    refine ⟨{ grouped with cellPositions := cells }, ?_⟩
    simp only [build, places, symmetry, Except.mapError, valid, positions, hpaired, hgrouped,
      hcells, pairs, closed, bind, Except.bind, pure, Except.pure]
    rfl

/-- A finished structure keeps the frame that it was drafted with. -/
structure Framed (s : CrystalStructure) (d : StructureDraft) : Prop where
  encoder : s.encoder = d.encoder
  positionSites : s.positionSites = d.positionSites
  bare : s.environments.map Environment.bare = d.environments.map Environment.bare

theorem framed_of_build {s : CrystalStructure} (h : build r config = .ok s) : ∃ l,
    r.symmetry (.ofWidth config.geometryTolerance) = .ok s.symmetry ∧
      PositionList.ofSites s.symmetry r = .ok l ∧ Framed s (draft s.symmetry r.cell r l) ∧
      Consistent r (draft s.symmetry r.cell r l) := by
  obtain ⟨l, paired, grouped, cells, _, symmetry, positions, hpaired, hgrouped, hcells, _, _,
    final⟩ := build_ok h
  have pairs := pairsLaid_of_foldlM hpaired draft_empty
  have groups := groupsLaid_of_foldlM hgrouped pairs.ungrouped
  have encoder : s.encoder = (draft s.symmetry r.cell r l).encoder := calc
    s.encoder = grouped.encoder := by rw [final]
    _ = paired.encoder := by rw [groups.frame]
    _ = (draft s.symmetry r.cell r l).encoder := by rw [pairs.frame]
  have sites : s.positionSites = (draft s.symmetry r.cell r l).positionSites := calc
    s.positionSites = grouped.positionSites := by rw [final]
    _ = paired.positionSites := by rw [groups.frame]
    _ = (draft s.symmetry r.cell r l).positionSites := by rw [pairs.frame]
  have bare : s.environments.map Environment.bare =
      (draft s.symmetry r.cell r l).environments.map Environment.bare := by
    rw [← groups.bare.trans pairs.bare, final]
  exact ⟨l, symmetry, positions, ⟨encoder, sites, bare⟩, (consistent_iff positions).mpr
    ⟨paired, grouped, cells, hpaired, hgrouped, mapM_ok_iff.mpr hcells⟩⟩

end CrystalStructure

end CrystalModel
