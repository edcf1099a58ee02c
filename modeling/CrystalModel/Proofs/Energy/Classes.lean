import CrystalModel.Proofs.Energy.Build
import CrystalModel.Proofs.Structure.Failure

/-! # Classes and their tables

The models of a structure fall into classes, one for each orientation of an active pair interaction
and one for each active group interaction. Every model lists the class that it lies in, and is
linked to the one table of this class. -/
namespace CrystalModel

open CrystalStructure StructureDraft

/-- The active pair interactions with their orientations. Between two sites an interaction is also
seen from the second one, where it is inverted. -/
def orientations (r : ReferenceData) : List (PairInteraction × Bool) :=
  (r.pairInteractions.filter (·.isActive)).flatMap fun i =>
    if i.site0 = i.site1 then [(i, false)] else [(i, false), (i, true)]

structure PairModel.Oriented (s : CrystalStructure) (m : PairModel) (x : PairInteraction × Bool) :
    Prop where
  interaction : m.interaction = x.1.index
  inverted : m.inverted = x.2
  environment : environmentOf s.environments (if x.2 then x.1.site1 else x.1.site0) =
    some m.environment

section Partition

variable {α γ δ κ : Type} {id : α → Nat} {members : α → List Nat} {led : α → γ → Prop}
  {classes : List Nat} {models : List α} {done : List γ}

/-- The models fall into classes, one for each element of a list and numbered like it. Every model
lists exactly the models of its class, and all of them agree in their lists and in what makes them
equivalent. -/
structure Partitioned (id : α → Nat) (members : α → List Nat) (key : α → κ)
    (belongs : α → δ → Prop) (classes : List Nat) (models : List α) (elements : List δ) : Prop where
  count : classes.length = elements.length
  leader : ∀ k first, classes[k]? = some first → ∃ m, models[first]? = some m ∧ id m = k
  element : ∀ m ∈ models, ∃ x, elements[id m]? = some x ∧ belongs m x
  listed : ∀ m ∈ models, ∀ n, n ∈ members m ↔ ∃ m', models[n]? = some m' ∧ id m' = id m
  once : ∀ m ∈ models, (members m).Nodup
  itself : ∀ n m, models[n]? = some m → n ∈ members m
  alike : ∀ m ∈ models, ∀ m' ∈ models, id m = id m' → members m = members m' ∧ key m = key m'

theorem Partitioned.of_classes (h : ClassPerElement id members led classes models done)
    {key : α → κ} {belongs : α → δ → Prop} (name : γ → δ)
    (named : ∀ m, ∀ x ∈ done, led m x → belongs m (name x))
    (determined : ∀ m m' x, belongs m x → belongs m' x → key m = key m') :
    Partitioned id members key belongs classes models (done.map name) := by
  have element (m : α) (hm : m ∈ models) :
      ∃ x, (done.map name)[id m]? = some x ∧ belongs m x := by
    obtain ⟨x, hx, lead⟩ := h.owner m hm
    refine ⟨name x, ?_, named m x (List.mem_of_getElem? hx) lead⟩
    rw [List.getElem?_map, hx, Option.map_some]
  have listed (m : α) (hm : m ∈ models) (n : Nat) :
      n ∈ members m ↔ ∃ m', models[n]? = some m' ∧ id m' = id m := by
    rw [h.siblings m hm, mem_placesOf]
  refine ⟨?_, fun k first => h.leader, element, listed, fun m hm => ?_, fun n m hn => ?_,
    fun m hm m' hm' same => ⟨?_, ?_⟩⟩
  · rw [List.length_map, h.leaders.length_eq]
  · rw [h.siblings m hm]
    exact placesOf_nodup _ _ _
  · exact (listed m (List.mem_of_getElem? hn) n).mpr ⟨m, hn, rfl⟩
  · rw [h.siblings m hm, h.siblings m' hm', same]
  · obtain ⟨x, hx, mine⟩ := element m hm
    obtain ⟨y, hy, others⟩ := element m' hm'
    rw [← same, hx, Option.some.injEq] at hy
    exact determined m m' x mine (hy ▸ others)

/-- Every model is linked to the one table of its number, and the tables stand in the order of their
numbers. -/
structure Assigned (ids : List Nat) (links : List (Option Nat)) (tables : List Nat)
    (classes : Nat) : Prop where
  order : tables = List.range classes
  every : links.length = ids.length
  own : ∀ n id : Nat, ids[n]? = some id → ∃ place : Nat, links[n]? = some (some place) ∧
    tables[place]? = some id ∧ ∀ other : Nat, tables[other]? = some id → other = place

theorem Energetics.links_eq (h : ClassPerElement id members led classes models done) :
    Energetics.links (classes.filterMap fun first => models[first]?.map members) models.length =
      models.map fun m => some (id m) := by
  rw [h.listed]
  refine List.ext_getElem (by simp [Energetics.links]) fun n hn _ => ?_
  have within : n < models.length := by simpa [Energetics.links] using hn
  have own {k : Nat} : n ∈ placesOf id models k ↔ id models[n] = k := by
    simp [mem_placesOf, List.getElem?_eq_getElem within]
  simp only [Energetics.links, List.getElem_map, List.getElem_range]
  rw [List.findIdx?_eq_some_iff_getElem]
  refine ⟨by simpa using h.id_lt _ (List.getElem_mem within), ?_, fun j hj => ?_⟩
  · simp [own]
  · simp only [List.getElem_map, List.getElem_range, List.contains_iff_mem, own]
    omega

theorem Assigned.of_classes (h : ClassPerElement id members led classes models done)
    {tables : List Nat} (order : tables = List.range classes.length) :
    Assigned (models.map id) (Energetics.links
      (classes.filterMap fun first => models[first]?.map members) models.length) tables
      classes.length := by
  rw [Energetics.links_eq h]
  refine ⟨order, by simp, fun n number hn => ⟨number, ?_, ?_, fun other hother => ?_⟩⟩
  · rw [List.getElem?_map] at hn ⊢
    obtain ⟨m, hm, rfl⟩ := Option.map_eq_some_iff.mp hn
    rw [hm, Option.map_some]
  · obtain ⟨m, hm, rfl⟩ := List.mem_map.mp (List.mem_of_getElem? hn)
    rw [order, List.getElem?_range (h.id_lt m hm)]
  · rw [order] at hother
    obtain ⟨_, same⟩ := List.getElem?_eq_some_iff.mp hother
    rwa [List.getElem_range] at same

end Partition

theorem orientations_eq (r : ReferenceData) : orientations r =
    (viewsOf (activePairs r)).map fun x => (x.1, x.2.inverted) := by
  rw [orientations, viewsOf, List.map_flatMap]
  refine List.flatMap_congr fun i _ => ?_
  unfold PairInteraction.views
  split <;> rfl

theorem centerSite_of_mem_viewsOf {interactions : List PairInteraction}
    {x : PairInteraction × PairView} (h : x ∈ viewsOf interactions) :
    x.2.centerSite = if x.2.inverted then x.1.site1 else x.1.site0 := by
  obtain ⟨i, _, hx⟩ := List.mem_flatMap.mp h
  obtain ⟨v, hv, rfl⟩ := List.mem_map.mp hx
  unfold PairInteraction.views at hv
  split at hv
  · rw [List.mem_singleton.mp hv]
    rfl
  · rcases List.mem_pair.mp hv with rfl | rfl <;> rfl

/-- The models of a finished structure are partitioned into closed classes in the order of the
active interactions, and its energies have one table for each class, which all models of the class
are linked to. No build, finished or not, ends in the check that the classes are closed. -/
theorem models_partitioned [Trigonometry] (r : ReferenceData) (config : Config) :
    (∀ (s : CrystalStructure) (e : Energetics), CrystalStructure.build r config = .ok s →
      Energetics.build r config s = .ok e →
      Partitioned PairModel.modelId PairModel.equivalents
        (fun m => (m.environment, m.interaction, m.inverted)) (PairModel.Oriented s) s.pairClasses
        s.pairModels (orientations r) ∧
      Partitioned GroupModel.modelId GroupModel.equivalents
        (fun m => (m.environment, m.interaction)) (GroupModel.Shows (environmentOf s.environments))
        s.groupClasses s.groupModels (r.groupInteractions.filter (·.isActive)) ∧
      Assigned (s.pairModels.map (·.modelId)) e.pairLinks (e.pairTables.map (·.modelId))
        s.pairClasses.length ∧
      Assigned (s.groupModels.map (·.modelId)) e.groupLinks (e.groupTables.map (·.modelId))
        s.groupClasses.length ∧
      checkClasses s.pairClasses (s.pairModels.map fun m => (m.modelId, m.equivalents)) = .ok () ∧
      checkClasses s.groupClasses (s.groupModels.map fun m => (m.modelId, m.equivalents)) =
        .ok ()) ∧
    ∀ error, CrystalStructure.build r config = .error error → ¬error.BreaksClass := by
  refine ⟨fun s e structural powered => ?_, build_avoids r config⟩
  obtain ⟨pairs, groups⟩ := classes_of_build structural
  obtain ⟨pairOrder, groupOrder⟩ :=
    Energetics.numbered_of_build (sound_of_build structural) powered
  obtain ⟨_, _, h⟩ := bind_ok_iff.mp powered
  obtain ⟨pairTables, _, h⟩ := bind_ok_iff.mp h
  obtain ⟨groupTables, _, h⟩ := bind_ok_iff.mp h
  obtain rfl := pure_ok_iff.mp h
  refine ⟨?_, ?_, .of_classes pairs pairOrder, .of_classes groups groupOrder, pairs.closed.check,
    groups.closed.check⟩
  · rw [orientations_eq]
    refine .of_classes pairs _ (fun m x hx lead => ⟨lead.interaction, lead.inverted, ?_⟩) ?_
    · rw [← centerSite_of_mem_viewsOf hx, lead.environment]
    · intro m m' x mine others
      have home := mine.environment.symm.trans others.environment
      simp only [Option.some.injEq] at home
      rw [home, mine.interaction, others.interaction, mine.inverted, others.inverted]
  · rw [← List.map_id' (r.groupInteractions.filter (·.isActive))]
    refine .of_classes groups _ (fun _ _ _ lead => lead) fun m m' i mine others => ?_
    have home := mine.environment.symm.trans others.environment
    simp only [Option.some.injEq] at home
    rw [home, mine.interaction, others.interaction]

/-- A chain in a mirror plane with a second site beside the plane. The first site sees two images of
the second one, which sees one of the first. -/
def ReferenceData.bridged : ReferenceData := { chain with
  spaceGroup := ⟨3, "P2", ["x,y,z", "x,-y,z"]⟩
  sites := [⟨0, "a", ⟨0.0, 0.0, 0.0⟩, 0, .stable, .active⟩,
    ⟨1, "b", ⟨0.5, 0.25, 0.0⟩, 0, .stable, .active⟩]
  pairInteractions := [⟨0, 0, 1, ⟨0.0, 0.0, 0.0⟩, ⟨0.5, 0.25, 0.0⟩, .symmetric, [], .active⟩]
  groupInteractions := [⟨0, 0, [⟨0.5, 0.25, 0.0⟩], [], .active⟩] }

open ReferenceData in
theorem bridged_partitioned : ∃ (s : CrystalStructure) (e : Energetics),
    @CrystalStructure.build rightAngle bridged plainConfig = .ok s ∧
    Energetics.build bridged plainConfig s = .ok e ∧
    s.pairModels.map (fun m => (m.modelId, m.inverted, m.equivalents)) =
      [(0, false, [0, 1]), (0, false, [0, 1]), (1, true, [2])] ∧
    Partitioned PairModel.modelId PairModel.equivalents
      (fun m => (m.environment, m.interaction, m.inverted)) (PairModel.Oriented s) s.pairClasses
      s.pairModels (orientations bridged) ∧
    Assigned (s.pairModels.map (·.modelId)) e.pairLinks (e.pairTables.map (·.modelId))
      s.pairClasses.length := by
  have found : (do
      let s ← @CrystalStructure.build rightAngle bridged plainConfig
      let e ← Energetics.build bridged plainConfig s
      return (s, e) : Except BuildError (CrystalStructure × Energetics)).toOption.any
      fun (s, _) => decide (s.pairModels.map (fun m => (m.modelId, m.inverted, m.equivalents)) =
        [(0, false, [0, 1]), (0, false, [0, 1]), (1, true, [2])]) := by decide +kernel
  obtain ⟨⟨s, e⟩, h, models⟩ := ok_of_any found
  obtain ⟨_, structural, h⟩ := bind_ok_iff.mp h
  obtain ⟨_, powered, h⟩ := bind_ok_iff.mp h
  cases pure_ok_iff.mp h
  obtain ⟨pairs, _, links, _⟩ := (@models_partitioned rightAngle _ _).1 s e
    structural powered
  exact ⟨s, e, structural, powered, of_decide_eq_true models, pairs, links⟩

end CrystalModel
