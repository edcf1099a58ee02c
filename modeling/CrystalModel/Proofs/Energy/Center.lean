import CrystalModel.Proofs.Energy.Build
import CrystalModel.Proofs.Geometry.Position
import CrystalModel.Proofs.Numeric.Ascending

/-! # Centers of group tables

The models of a group interaction surround the source of an environment, which lies in the origin
cell. Its table is filled in the orders about the point that the center site was written with. An
operation keeps both points in place by different lattice vectors, so these orders are those about
the center only where both sets of operations reorder the partners alike. -/
namespace CrystalModel

open CrystalStructure StructureDraft

namespace StructureDraft

variable {d d' : StructureDraft} {i : GroupInteraction}

/-- Every model surrounds the origin of the center site of its interaction. -/
def Centered (home : Nat → Option Point) (interactions : List GroupInteraction)
    (models : List GroupModel) : Prop :=
  ∀ m ∈ models, ∃ i ∈ interactions, m.interaction = i.index ∧ home i.centerSite = some m.center

theorem Centered.addGroup {done : List GroupInteraction}
    (before : Centered (originOf d.environments) done d.groupModels) (h : d.addGroup i = .ok d') :
    Centered (originOf d.environments) (done ++ [i]) d'.groupModels := by
  obtain ⟨e, env, models, center, henv, _, made, rfl⟩ := addGroup_ok h
  intro m hm
  rcases List.mem_append.mp hm with old | new
  · obtain ⟨j, hj, rest⟩ := before m old
    exact ⟨j, List.mem_append_left _ hj, rest⟩
  · refine ⟨i, by simp, (made m new).interaction, ?_⟩
    rw [originOf, center, Option.bind_some, henv, Option.map_some, (made m new).center]

theorem centered_of_foldlM {interactions : List GroupInteraction} {start : StructureDraft}
    (h : interactions.foldlM StructureDraft.addGroup start = .ok d)
    (unmodeled : start.groupModels = []) :
    Centered (originOf start.environments) interactions d.groupModels := by
  have laid := foldlM_ok_induction (motive := fun done d =>
    d.environments.map Environment.bare = start.environments.map Environment.bare ∧
      Centered (originOf start.environments) done d.groupModels) h ⟨rfl, ?_⟩ ?_
  · exact laid.2
  · rw [unmodeled]
    simp [Centered]
  · rintro done i _ t u _ ⟨bare, before⟩ step
    refine ⟨(addGroup_bare step).trans bare, ?_⟩
    rw [← originOf_congr bare] at before ⊢
    exact before.addGroup step

end StructureDraft

namespace CrystalStructure

variable {r : ReferenceData} {s : CrystalStructure}

theorem Sound.originOf_eq (sound : Sound r s) {k : Nat} {site : Site}
    (hk : r.sites[k]? = some site) {origin : Point}
    (h : originOf s.environments k = some origin) :
    origin = Fractional.trimPoint s.symmetry.tolerance site.vector := by
  obtain ⟨e, he, hsource⟩ := Option.bind_eq_some_iff.mp h
  obtain ⟨env, henv, rfl⟩ := Option.map_eq_some_iff.mp hsource
  obtain ⟨_, henv', home⟩ := environmentOf_site he
  cases henv.symm.trans henv'
  have listed : env.bare ∈ (r.sites.filter (·.isActive)).map fun site =>
      (⟨site.index, s.symmetry.dictionary site.vector, [], []⟩ : Environment) :=
    sound.environments ▸ List.mem_map_of_mem (List.mem_of_getElem? henv)
  obtain ⟨other, hother, same⟩ := List.mem_map.mp listed
  obtain ⟨j, hj⟩ := List.mem_iff_getElem?.mp (List.mem_filter.mp hother).1
  have number : other.index = k := (congrArg Environment.site same).trans home
  rw [ReferenceData.site_index sound.places hj] at number
  rw [number, hk, Option.some.injEq] at hj
  rw [hj]
  exact (congrArg (fun e : Environment => e.dictionary.source) same).symm

end CrystalStructure

variable {r : ReferenceData} {config : Config} {s : CrystalStructure}

theorem CrystalStructure.centered_of_build [Trigonometry]
    (h : CrystalStructure.build r config = .ok s) :
    Centered (originOf s.environments) (r.groupInteractions.filter (·.isActive))
      s.groupModels := by
  obtain ⟨positions, paired, grouped, _, _, _, _, hpaired, hgrouped, _, _, _, rfl⟩ := build_ok h
  have laid := pairsLaid_of_foldlM hpaired draft_empty
  have groups := groupsLaid_of_foldlM hgrouped laid.ungrouped
  have unmodeled : paired.groupModels = [] := by
    rw [laid.frame]
    rfl
  simp only [originOf_congr groups.bare]
  exact centered_of_foldlM hgrouped unmodeled

theorem CrystalStructure.center_eq [Trigonometry] (h : CrystalStructure.build r config = .ok s)
    {m : GroupModel} (hm : m ∈ s.groupModels) {i : GroupInteraction}
    (hi : r.groupInteractions[m.interaction]? = some i) {site : Site}
    (hsite : r.sites[i.centerSite]? = some site) :
    m.center = Fractional.trimPoint s.symmetry.tolerance site.vector := by
  have sound := sound_of_build h
  obtain ⟨j, hj, shown, center⟩ := centered_of_build h m hm
  obtain ⟨k, hk⟩ := List.mem_iff_getElem?.mp (List.mem_filter.mp hj).1
  rw [shown, ReferenceData.groupInteraction_index sound.places hk, hk, Option.some.injEq] at hi
  exact sound.originOf_eq hsite (hi ▸ center)

/-- The table of a class with its labels, filled in the orders about a point. -/
structure GroupTable.FilledAbout (r : ReferenceData) (config : Config) (s : CrystalStructure)
    (i : GroupInteraction) (origin : Point) (l : GroupLayout) (t : GroupTable) : Prop where
  layout : i.layout r s = .ok l
  table : i.table l config.energyTolerance = .ok t.table
  centers : t.centers = l.centers
  codes : t.codes = l.codes
  orders : l.orders = s.symmetry.sitePermutations origin i.geometry
  assigned : ∀ x, x ∈ t.table.assigned ↔ ∃ entry ∈ i.energies, ∃ order,
    s.symmetry.Reorders origin i.geometry order ∧ l.Assigns entry order x

theorem groupEnergies_filled {m : GroupModel} {t : GroupTable}
    (h : groupEnergies r config s m = .ok t) : ∃ i site l,
      r.groupInteractions[m.interaction]? = some i ∧ r.sites[i.centerSite]? = some site ∧
      t.FilledAbout r config s i site.vector l := by
  obtain ⟨i, l, hi, layout, made, _, _, centers, codes⟩ := groupEnergies_ok_iff.mp h
  obtain ⟨site, _, hsite, _, rfl⟩ := GroupInteraction.layout_ok_iff.mp layout
  refine ⟨i, site, _, hi, hsite, layout, made, centers, codes, rfl, fun x => ?_⟩
  simp only [GroupInteraction.mem_table made, Symmetry.mem_sitePermutations]

theorem SettledPoint.trim {tolerance : Tolerance} {v : Point} (h : SettledPoint tolerance v) :
    Fractional.trimPoint tolerance v = v := by
  rw [Fractional.trimPoint, Vec3.map, Fractional.trim_of_settled h.x,
    Fractional.trim_of_settled h.y, Fractional.trim_of_settled h.z]

theorem Energetics.groupTable_of_build [Trigonometry] {e : Energetics}
    (structural : CrystalStructure.build r config = .ok s)
    (powered : Energetics.build r config s = .ok e) {k first : Nat}
    (leads : s.groupClasses[k]? = some first) : ∃ m t, s.groupModels[first]? = some m ∧
      e.groupTables[k]? = some t ∧ groupEnergies r config s m = .ok t := by
  obtain ⟨⟨⟩, _, h⟩ := bind_ok_iff.mp powered
  obtain ⟨pairTables, _, h⟩ := bind_ok_iff.mp h
  obtain ⟨groupTables, hgroups, h⟩ := bind_ok_iff.mp h
  rw [← pure_ok_iff.mp h]
  have modeled : ∀ first ∈ s.groupClasses, ∃ m, s.groupModels[first]? = some m := by
    intro first hfirst
    obtain ⟨_, _, m, hm, _⟩ := aligned_mem_left (classes_of_build structural).2.leaders hfirst
    exact ⟨m, hm⟩
  obtain ⟨m, hm⟩ := modeled first (List.mem_of_getElem? leads)
  have listed : (s.groupClasses.filterMap (s.groupModels[·]?))[k]? = some m := by
    rw [getElem?_filterMap_of_isSome modeled, leads, Option.bind_some, hm]
  obtain ⟨t, ht, made⟩ := aligned_left (mapM_ok_iff.mp hgroups) listed
  exact ⟨m, t, hm, ht, made⟩

/-- All models of a class belong to one interaction. -/
theorem CrystalStructure.interaction_of_equivalent [Trigonometry]
    (h : CrystalStructure.build r config = .ok s) {m : GroupModel} (hm : m ∈ s.groupModels)
    {n : Nat} (hn : n ∈ m.equivalents) :
    ∃ m', s.groupModels[n]? = some m' ∧ m'.interaction = m.interaction := by
  obtain ⟨_, groups⟩ := classes_of_build h
  rw [groups.siblings m hm, mem_placesOf] at hn
  obtain ⟨m', hm', same⟩ := hn
  obtain ⟨i, hi, mine⟩ := groups.owner m hm
  obtain ⟨j, hj, others⟩ := groups.owner m' (List.mem_of_getElem? hm')
  rw [same, hi, Option.some.injEq] at hj
  exact ⟨m', hm', others.interaction.trans (hj ▸ mine.interaction.symm)⟩

/-- The table of a class is filled in the orders about the point that the center site was written
with, while its models surround this point moved into the origin cell. The orders are those about
the center exactly when the operations reorder the partners alike about both points, as they do
where both are kept in place by the same lattice vectors, above all where the site was written in
the origin cell. -/
theorem group_orders_iff [Trigonometry] {e : Energetics}
    (structural : CrystalStructure.build r config = .ok s)
    (powered : Energetics.build r config s = .ok e) {k first : Nat}
    (leads : s.groupClasses[k]? = some first) :
    ∃ m t i site l, s.groupModels[first]? = some m ∧ e.groupTables[k]? = some t ∧
      r.groupInteractions[m.interaction]? = some i ∧ r.sites[i.centerSite]? = some site ∧
      t.FilledAbout r config s i site.vector l ∧
      m.center = Fractional.trimPoint s.symmetry.tolerance site.vector ∧
      (∀ n ∈ m.equivalents, ∃ m', s.groupModels[n]? = some m' ∧ m'.center = m.center) ∧
      ((∀ order, order ∈ l.orders ↔ order ∈ s.symmetry.sitePermutations m.center i.geometry) ↔
        ∀ order, s.symmetry.Reorders site.vector i.geometry order ↔
          s.symmetry.Reorders m.center i.geometry order) ∧
      ((∀ op ∈ s.symmetry.group.operations, ∀ shift,
          s.symmetry.Keeps site.vector op shift ↔ s.symmetry.Keeps m.center op shift) →
        l.orders = s.symmetry.sitePermutations m.center i.geometry) ∧
      (SettledPoint s.symmetry.tolerance site.vector →
        l.orders = s.symmetry.sitePermutations m.center i.geometry) := by
  obtain ⟨m, t, hm, ht, made⟩ := Energetics.groupTable_of_build structural powered leads
  obtain ⟨i, site, l, hi, hsite, filled⟩ := groupEnergies_filled made
  have mem := List.mem_of_getElem? hm
  have center := center_eq structural mem hi hsite
  refine ⟨m, t, i, site, l, hm, ht, hi, hsite, filled, center, fun n hn => ?_, ?_, fun same => ?_,
    fun settled => ?_⟩
  · obtain ⟨m', hm', same⟩ := interaction_of_equivalent structural mem hn
    rw [center]
    exact ⟨m', hm', center_eq structural (List.mem_of_getElem? hm') (same ▸ hi) hsite⟩
  · simp only [filled.orders, Symmetry.mem_sitePermutations]
  · rw [filled.orders, Symmetry.sitePermutations_congr same]
  · rw [filled.orders, center, settled.trim]

namespace ReferenceData

def pairedCluster : GroupInteraction :=
  ⟨0, 0, [⟨1.0, 0.0, 0.0⟩, ⟨-1.0, 0.0, 0.0⟩], [⟨1, [1, 2], 0.75⟩], .active⟩

/-- The chain under the inversion, with its site written one cell further along. -/
def outlying : ReferenceData := { chain with
  spaceGroup := ⟨2, "P-1", ["x,y,z", "-x,-y,-z"]⟩
  sites := [⟨0, "a", ⟨1.0, 0.0, 0.0⟩, 0, .stable, .active⟩]
  groupInteractions := [pairedCluster] }

def outlyingLayout : GroupLayout := ⟨[1, 2], [257, 258, 513, 514], [[0, 1]]⟩

variable {s : CrystalStructure}

theorem outlying_layout (partners : pairedCluster.geometry.mapM s.partnerSite = some [0, 0])
    (orders : s.symmetry.sitePermutations ⟨1.0, 0.0, 0.0⟩ pairedCluster.geometry = [[0, 1]]) :
    pairedCluster.layout outlying s = .ok outlyingLayout := by
  have occupants : outlying.occupantsOf 0 = [1, 2] :=
    Numeric.ascending_of_perm (.refl [1, 2]) (by decide)
  have codes : GroupLayout.codesOf [[1, 2], [1, 2]] = [257, 258, 513, 514] :=
    Numeric.ascending_of_perm (by decide +kernel) (by decide)
  refine GroupInteraction.layout_ok_iff.mpr
    ⟨⟨0, "a", ⟨1.0, 0.0, 0.0⟩, 0, .stable, .active⟩, [0, 0], rfl, partners, ?_⟩
  rw [orders, List.map_cons, List.map_cons, List.map_nil, occupants, codes]
  exact congrArg (fun centers => GroupLayout.mk centers _ _) occupants.symm

theorem outlying_table : ∃ table,
    pairedCluster.table outlyingLayout plainConfig.energyTolerance = .ok table ∧
      table.rows = [[0.0, 0.0, 0.75, 0.0], [0.0, 0.0, 0.0, 0.0]] := by
  have made : (pairedCluster.table outlyingLayout plainConfig.energyTolerance).toOption.any
      fun table => decide (table.rows = [[0.0, 0.0, 0.75, 0.0], [0.0, 0.0, 0.0, 0.0]]) := by
    decide +kernel
  exact (ok_of_any made).imp fun _ h => ⟨h.1, of_decide_eq_true h.2⟩

theorem outlying_powered
    (structural : @CrystalStructure.build rightAngle outlying plainConfig = .ok s)
    (layout : pairedCluster.layout outlying s = .ok outlyingLayout) :
    ∃ e, Energetics.build outlying plainConfig s = .ok e := by
  refine (@Energetics.build_succeeds_iff _ _ _ rightAngle structural).mpr ⟨?_, fun i hi => ?_⟩
  · have each : ∀ x ∈ viewsOf (activePairs outlying), (x.1.table x.2.inverted
        outlying.particles.length plainConfig.energyTolerance).toOption.any fun _ => true := by
      decide +kernel
    exact fun x hx => (ok_of_any (each x hx)).imp fun _ h => h.1
  · obtain rfl : i = pairedCluster := List.mem_singleton.mp hi
    obtain ⟨table, made, _⟩ := outlying_table
    exact ⟨_, table, layout, made⟩

end ReferenceData

open ReferenceData in
theorem outlying_orders : ∃ (s : CrystalStructure) (e : Energetics) (m : GroupModel)
    (t : GroupTable) (i : GroupInteraction) (l : GroupLayout),
    @CrystalStructure.build rightAngle outlying plainConfig = .ok s ∧
    Energetics.build outlying plainConfig s = .ok e ∧ s.groupModels[0]? = some m ∧
    e.groupTables[0]? = some t ∧ t.FilledAbout outlying plainConfig s i ⟨1.0, 0.0, 0.0⟩ l ∧
    m.center = ⟨0.0, 0.0, 0.0⟩ ∧ l.orders = [[0, 1]] ∧
    s.symmetry.sitePermutations m.center i.geometry = [[0, 1], [1, 0]] ∧
    t.table.rows = [[0.0, 0.0, 0.75, 0.0], [0.0, 0.0, 0.0, 0.0]] := by
  have found : (@CrystalStructure.build rightAngle outlying plainConfig).toOption.any fun s =>
      decide (s.groupClasses = [0] ∧
        s.groupModels.map (fun m => (m.interaction, m.center)) = [(0, ⟨0.0, 0.0, 0.0⟩)] ∧
        pairedCluster.geometry.mapM s.partnerSite = some [0, 0] ∧
        s.symmetry.sitePermutations ⟨1.0, 0.0, 0.0⟩ pairedCluster.geometry = [[0, 1]] ∧
        s.symmetry.sitePermutations ⟨0.0, 0.0, 0.0⟩ pairedCluster.geometry = [[0, 1], [1, 0]]) := by
    decide +kernel
  obtain ⟨s, structural, seen⟩ := ok_of_any found
  obtain ⟨classes, models, partners, written, centered⟩ := of_decide_eq_true seen
  have layout := outlying_layout partners written
  obtain ⟨e, powered⟩ := outlying_powered structural layout
  obtain ⟨m, only, shown⟩ := List.map_eq_singleton_iff.mp models
  obtain ⟨interaction, center⟩ := Prod.mk.inj shown
  obtain ⟨m', t, i, site, l, hm, ht, hi, hsite, about, _⟩ :=
    @group_orders_iff _ _ _ rightAngle e structural powered 0 0 (by rw [classes]; rfl)
  rw [only, List.getElem?_cons_zero, Option.some.injEq] at hm
  subst hm
  rw [interaction] at hi
  obtain rfl : pairedCluster = i := Option.some.inj hi
  cases hsite
  obtain rfl := Except.ok.inj (layout.symm.trans about.layout)
  obtain ⟨table, made, rows⟩ := outlying_table
  obtain rfl := Except.ok.inj (made.symm.trans about.table)
  refine ⟨s, e, m, t, pairedCluster, _, structural, powered, ?_, ht, about, center, rfl, ?_, rows⟩
  · rw [only, List.getElem?_cons_zero]
  · rw [center]
    exact centered

end CrystalModel
