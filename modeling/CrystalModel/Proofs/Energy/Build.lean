import CrystalModel.Proofs.Energy.Table
import CrystalModel.Proofs.Structure.Build
import CrystalModel.Proofs.Structure.Buildable
import CrystalModel.Proofs.Structure.Reciprocity

/-! # A table for every class

The models that lead the classes are numbered by them, and every one of them gets a table that
carries this number. A structure has one class per view and per cluster, so the tables can be built
exactly when the authored energies of every active interaction fill the table of each of its
views. -/
namespace CrystalModel

open CrystalStructure StructureDraft

theorem pairEnergies_ok {r : ReferenceData} {config : Config} {m : PairModel} {t : PairTable}
    (h : pairEnergies r config m = .ok t) : t.modelId = m.modelId := by
  unfold pairEnergies at h
  split at h
  · cases h
  · split at h
    · cases h
    · cases h
      rfl

theorem GroupLayout.assignEntry_size {l : GroupLayout} {width : Float} {partners : Nat}
    {t t' : EnergyTable} {entry : GroupEnergy}
    (h : l.assignEntry width partners t entry = .ok t') :
    t'.rowCount = t.rowCount ∧ t'.columnCount = t.columnCount := by
  obtain ⟨_, row, _, h⟩ := assignEntry_ok_iff.mp h
  refine foldlM_ok_induction (motive := fun _ t' =>
    t'.rowCount = t.rowCount ∧ t'.columnCount = t.columnCount) h ⟨rfl, rfl⟩ ?_
  intro _ order _ _ _ _ ih step
  obtain ⟨column, _, step⟩ := assignOrder_ok_iff.mp step
  rw [EnergyTable.assign_ok step]
  exact ih

theorem GroupInteraction.table_size {i : GroupInteraction} {l : GroupLayout} {width : Float}
    {t : EnergyTable} (h : i.table l width = .ok t) :
    t.rowCount = l.centers.length ∧ t.columnCount = l.codes.length := by
  refine foldlM_ok_induction (motive := fun _ t =>
    t.rowCount = l.centers.length ∧ t.columnCount = l.codes.length) h ⟨rfl, rfl⟩ ?_
  intro _ _ _ _ _ _ ih step
  obtain ⟨rows, columns⟩ := GroupLayout.assignEntry_size step
  exact ⟨rows.trans ih.1, columns.trans ih.2⟩

theorem groupEnergies_ok {r : ReferenceData} {config : Config} {s : CrystalStructure}
    {m : GroupModel} {t : GroupTable} (h : groupEnergies r config s m = .ok t) :
    t.modelId = m.modelId ∧ t.table.rowCount = t.centers.length := by
  obtain ⟨_, _, _, _, made, modelId, _, centers, _⟩ := groupEnergies_ok_iff.mp h
  exact ⟨modelId, centers ▸ (GroupInteraction.table_size made).1⟩

theorem leaders_numbered {α : Type} {classes : List Nat} {models : List α} {id : α → Nat}
    {members : α → List Nat}
    (closed : checkClasses classes (models.map fun m => (id m, members m)) = .ok ()) :
    (classes.filterMap (models[·]?)).map id = List.range classes.length := by
  rw [List.map_filterMap, ← List.map_id' (List.range classes.length)]
  refine filterMap_eq_map_range fun k first hk => ?_
  obtain ⟨_, found, _⟩ := checkClasses_ok closed hk
  rw [List.getElem?_map] at found
  obtain ⟨m, hm, same⟩ := Option.map_eq_some_iff.mp found
  rw [hm, Option.map_some, (Prod.mk.inj same).1]

namespace Energetics

variable {r r' : ReferenceData} {config : Config} {s : CrystalStructure} {e : Energetics}

theorem numbered_of_build (sound : CrystalStructure.Sound r' s) (h : build r config s = .ok e) :
    e.pairTables.map (·.modelId) = List.range s.pairClasses.length ∧
      e.groupTables.map (·.modelId) = List.range s.groupClasses.length := by
  obtain ⟨⟨⟩, _, h⟩ := bind_ok_iff.mp h
  obtain ⟨pairTables, hpairs, h⟩ := bind_ok_iff.mp h
  obtain ⟨groupTables, hgroups, h⟩ := bind_ok_iff.mp h
  rw [← pure_ok_iff.mp h]
  constructor
  · rw [← leaders_numbered sound.pairClasses]
    refine (map_eq_of_aligned ((mapM_ok_iff.mp hpairs).imp fun _ _ h => ?_)).symm
    exact (pairEnergies_ok h).symm
  · rw [← leaders_numbered sound.groupClasses]
    refine (map_eq_of_aligned ((mapM_ok_iff.mp hgroups).imp fun _ _ h => ?_)).symm
    exact (groupEnergies_ok h).1.symm

theorem rows_of_build (h : build r config s = .ok e) :
    ∀ t ∈ e.groupTables, t.table.rowCount = t.centers.length := by
  obtain ⟨⟨⟩, _, h⟩ := bind_ok_iff.mp h
  obtain ⟨pairTables, _, h⟩ := bind_ok_iff.mp h
  obtain ⟨groupTables, hgroups, h⟩ := bind_ok_iff.mp h
  rw [← pure_ok_iff.mp h]
  intro t ht
  obtain ⟨_, _, made⟩ := aligned_mem_right (mapM_ok_iff.mp hgroups) ht
  exact (groupEnergies_ok made).2

end Energetics

/-! ## When the energies can be built -/

variable {r : ReferenceData} {config : Config} {s : CrystalStructure}

theorem CrystalStructure.classes_of_build [Trigonometry]
    (h : CrystalStructure.build r config = .ok s) :
    ClassPerElement PairModel.modelId PairModel.equivalents
      (PairModel.Shows (environmentOf s.environments)) s.pairClasses s.pairModels
      (viewsOf (activePairs r)) ∧
    ClassPerElement GroupModel.modelId GroupModel.equivalents
      (GroupModel.Shows (environmentOf s.environments)) s.groupClasses s.groupModels
      (r.groupInteractions.filter (·.isActive)) := by
  obtain ⟨l, paired, grouped, cells, _, _, _, laid, grown, _, _, _, rfl⟩ := build_ok h
  exact classes_of_foldlM laid grown

theorem StructureDraft.ClassPerElement.forall_leaders_iff {α γ : Type} {id : α → Nat}
    {members : α → List Nat} {led : α → γ → Prop} {classes : List Nat} {models : List α}
    {done : List γ} (h : ClassPerElement id members led classes models done) {p : α → Prop}
    {q : γ → Prop} (same : ∀ m x, led m x → x ∈ done → (p m ↔ q x)) :
    (∀ m ∈ classes.filterMap (models[·]?), p m) ↔ ∀ x ∈ done, q x := by
  constructor
  · intro each x hx
    obtain ⟨first, hfirst, m, hm, lead⟩ := aligned_mem_right h.leaders hx
    exact (same m x lead hx).mp (each m (List.mem_filterMap.mpr ⟨first, hfirst, hm⟩))
  · intro each m hm
    obtain ⟨first, hfirst, hm⟩ := List.mem_filterMap.mp hm
    obtain ⟨x, hx, m', hm', lead⟩ := aligned_mem_left h.leaders hfirst
    rw [hm, Option.some.injEq] at hm'
    subst hm'
    exact (same m x lead hx).mpr (each x hx)

theorem pairEnergies_succeeds_iff {m : PairModel} {i : PairInteraction}
    (hi : r.pairInteractions[m.interaction]? = some i) :
    (∃ t, pairEnergies r config m = .ok t) ↔
      ∃ table, i.table m.inverted r.particles.length config.energyTolerance = .ok table := by
  unfold pairEnergies
  simp only [hi]
  cases i.table m.inverted r.particles.length config.energyTolerance <;> simp

theorem groupEnergies_succeeds_iff {m : GroupModel} {i : GroupInteraction}
    (hi : r.groupInteractions[m.interaction]? = some i) :
    (∃ t, groupEnergies r config s m = .ok t) ↔
      ∃ l table, i.layout r s = .ok l ∧ i.table l config.energyTolerance = .ok table := by
  simp only [groupEnergies_ok_iff, hi, Option.some.injEq]
  constructor
  · rintro ⟨t, _, l, rfl, layout, made, _⟩
    exact ⟨l, t.table, layout, made⟩
  · rintro ⟨l, table, layout, made⟩
    exact ⟨⟨m.modelId, i.index, l.centers, l.codes, table⟩, i, l, rfl, layout, made, rfl, rfl, rfl,
      rfl⟩

/-- The energies over a structure can be built exactly when every view of an active pair and every
active cluster has a table. -/
theorem Energetics.build_succeeds_iff [Trigonometry]
    (built : CrystalStructure.build r config = .ok s) :
    (∃ e, Energetics.build r config s = .ok e) ↔
      (∀ x ∈ viewsOf (activePairs r), ∃ table,
        x.1.table x.2.inverted r.particles.length config.energyTolerance = .ok table) ∧
      ∀ i ∈ r.groupInteractions.filter (·.isActive), ∃ l table,
        i.layout r s = .ok l ∧ i.table l config.energyTolerance = .ok table := by
  obtain ⟨pairs, groups⟩ := classes_of_build built
  have places := (sound_of_build built).places
  have steps : (∃ e, Energetics.build r config s = .ok e) ↔
      (∀ m ∈ s.pairClasses.filterMap (s.pairModels[·]?), ∃ t, pairEnergies r config m = .ok t) ∧
      ∀ m ∈ s.groupClasses.filterMap (s.groupModels[·]?),
        ∃ t, groupEnergies r config s m = .ok t := by
    rw [← mapM_succeeds_iff, ← mapM_succeeds_iff]
    simp only [Energetics.build, bind_ok_iff, pure_ok_iff]
    constructor
    · rintro ⟨_, ⟨⟩, _, pairTables, hpairs, groupTables, hgroups, _⟩
      exact ⟨⟨pairTables, hpairs⟩, groupTables, hgroups⟩
    · rintro ⟨⟨pairTables, hpairs⟩, groupTables, hgroups⟩
      exact ⟨_, (), places, pairTables, hpairs, groupTables, hgroups, rfl⟩
  rw [steps]
  refine and_congr (pairs.forall_leaders_iff fun m x lead hx => ?_)
    (groups.forall_leaders_iff fun m i lead hi => ?_)
  · obtain ⟨i, v⟩ := x
    obtain ⟨k, hk⟩ := List.mem_iff_getElem?.mp (mem_activeViews.mp hx).1
    rw [← lead.inverted]
    refine pairEnergies_succeeds_iff ?_
    rw [lead.interaction, ReferenceData.pairInteraction_index places hk]
    exact hk
  · obtain ⟨k, hk⟩ := List.mem_iff_getElem?.mp (List.mem_filter.mp hi).1
    refine groupEnergies_succeeds_iff ?_
    rw [lead.interaction, ReferenceData.groupInteraction_index places hk]
    exact hk

end CrystalModel
