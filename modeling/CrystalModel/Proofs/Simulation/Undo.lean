import CrystalModel.Proofs.Reference.Validation
import CrystalModel.Proofs.Simulation.Build
import CrystalModel.Proofs.Transition.Inverse

/-! # Undoing a jump

A simulation selects all versions of the transitions it lists. A model and its inverse are versions
of one transition, so they are selected together, and so are their mappings. -/
namespace CrystalModel.SimulationModel

open TransitionNetwork

variable {t : TransitionNetwork} {kind : SimulationKind} {listed selected : List Nat}

theorem Selected.version (picked : Selected t kind listed selected) {n n' : Nat}
    {m m' : LinkedTransition} (hn : n ∈ selected) (hm : t.transitions[n]? = some m)
    (hm' : t.transitions[n']? = some m') (sameKind : m'.kind = m.kind)
    (sameReference : m'.reference = m.reference) : n' ∈ selected := by
  obtain ⟨reference, among, version⟩ := (picked.mem n).mp hn
  obtain ⟨found, hfound, hkind, hreference⟩ := mem_versionsOf.mp version
  rw [hm, Option.some.injEq] at hfound
  subst hfound
  apply (picked.mem n').mpr
  refine ⟨reference, among, mem_versionsOf.mpr ⟨m', hm', ?_, ?_⟩⟩
  · exact sameKind.trans hkind
  · exact sameReference.trans hreference

section Network

variable [Trigonometry] [d : RandomSeeds] {r r' : ReferenceData} {config config' : Config}
  {structured structured' : CrystalStructure} {index : Nat} {s : SimulationModel}
  {issues : List Issue}

theorem directions_mappings (h : build r config structured t index = .ok (s, issues)) :
    s.directions.map (·.mapping) = (selectedMappings t s.transitions).map (·.2.1) := by
  obtain ⟨sim, _, _, _, _, _, hdirections, _⟩ := build_ok h
  apply List.ext_getElem?
  intro d
  rw [hdirections, List.getElem?_map, directionsOf_getElem?, Option.map_map, List.getElem?_map]
  rfl

/-- No two directions run on one mapping. -/
theorem directions_distinct (network : TransitionNetwork.build r config structured = .ok t)
    (h : build r' config' structured' t index = .ok (s, issues)) :
    (s.directions.map (·.mapping)).Nodup := by
  obtain ⟨split, arranged⟩ := arranged_of_build network
  obtain ⟨_, _, hselection, _⟩ := build_ok h
  obtain ⟨picked, sorted⟩ := selection_ok hselection
  rw [directions_mappings h]
  exact selectedMappings_distinct arranged picked sorted

theorem exists_direction (h : build r config structured t index = .ok (s, issues)) {c n id : Nat}
    {m : LinkedTransition} {y : Mapping} (hc : s.transitions[c]? = some n)
    (hm : t.transitions[n]? = some m) (hid : id ∈ m.mappings) (hy : t.mappings[id]? = some y) :
    ∃ (d : Nat) (direction : JumpDirection), s.directions[d]? = some direction ∧
      direction.collection = c ∧ direction.mapping = id := by
  obtain ⟨sim, _, _, _, _, _, hdirections, _⟩ := build_ok h
  obtain ⟨d, hd⟩ :=
    List.mem_iff_getElem?.mp (mem_selectedMappings.mpr ⟨n, m, hc, hm, hid, hy⟩)
  have found := congrArg (·[d]?) hdirections
  simp only [directionsOf_getElem?, hd, Option.map_some] at found
  exact ⟨d, _, found, rfl, rfl⟩

/-- Every direction is undone by exactly one direction of the simulation, whatever transitions the
simulation lists. -/
theorem undone_of_build (network : TransitionNetwork.build r config structured = .ok t)
    (h : build r' config' structured' t index = .ok (s, issues)) {d : Nat}
    {direction : JumpDirection} (hd : s.directions[d]? = some direction) :
    ∃ y, t.mappings[direction.mapping]? = some y ∧
      ∃! d' : Nat, ∃ back : JumpDirection, s.directions[d']? = some back ∧
        back.mapping = y.inverse := by
  obtain ⟨n, m, y, directed⟩ := directed_of_build h hd
  obtain ⟨_, _, hselection, _⟩ := build_ok h
  obtain ⟨picked, _⟩ := selection_ok hselection
  obtain ⟨z, y', m', hz, hy', _, hm', among⟩ :=
    inverse_listed network directed.model directed.listed
  rw [directed.mapping, Option.some.injEq] at hz
  subst hz
  obtain ⟨m'', hm'', _, kind, reference⟩ := inverse_inverse network directed.model
  rw [hm', Option.some.injEq] at hm''
  subst hm''
  have selected := picked.version (List.mem_of_getElem? directed.selected) directed.model hm' kind
    reference
  obtain ⟨c, hc⟩ := List.mem_iff_getElem?.mp selected
  obtain ⟨d', back, hd', _, hback⟩ := exists_direction h hc hm' among hy'
  refine ⟨y, directed.mapping, d', ⟨back, hd', hback⟩, ?_⟩
  rintro d'' ⟨back', hd'', hback'⟩
  have mapped : ∀ {place : Nat} {x : JumpDirection}, s.directions[place]? = some x →
      x.mapping = y.inverse → (s.directions.map (·.mapping))[place]? = some y.inverse := by
    intro place x hx hmapping
    rw [List.getElem?_map, hx, Option.map_some, hmapping]
  have first := mapped hd'' hback'
  have second := mapped hd' hback
  have inside := (List.getElem?_eq_some_iff.mp first).1
  exact (List.getElem?_inj inside (directions_distinct network h)).mp (first.trans second.symm)

end Network

open ReferenceData in
theorem chain_undone : ∃ structured t s issues,
    @TransitionNetwork.build rightAngle chain plainConfig structured = .ok t ∧
    @build rightAngle _ chain plainConfig structured t 1 = .ok (s, issues) ∧
    s.directions.map (·.mapping) = [0, 1] ∧ ∃ direction y, s.directions[0]? = some direction ∧
      t.mappings[direction.mapping]? = some y ∧
      ∃! d' : Nat, ∃ back : JumpDirection, s.directions[d']? = some back ∧
        back.mapping = y.inverse := by
  have found : (do
      let structured ← @CrystalStructure.build rightAngle chain plainConfig
      let t ← @TransitionNetwork.build rightAngle chain plainConfig structured
      let sim ← checked chain 1
      let selected ← sim.transitions.foldlM (select chain t sim 1) []
      let built ← @ofSelection rightAngle _ chain plainConfig structured t 1 sim selected
      return (t, selected, built.1) : Except BuildError
        (TransitionNetwork × List Nat × SimulationModel)).toOption.any
      fun (t, selected, s) => decide (selected.Pairwise fun a b => idOf t a ≤ idOf t b) &&
        decide (s.directions.map (·.mapping) = [0, 1]) := by decide +kernel
  obtain ⟨⟨t, selected, s⟩, h, facts⟩ := ok_of_any found
  obtain ⟨structured, _, h⟩ := bind_ok_iff.mp h
  obtain ⟨_, network, h⟩ := bind_ok_iff.mp h
  obtain ⟨sim, hsim, h⟩ := bind_ok_iff.mp h
  obtain ⟨_, hselected, h⟩ := bind_ok_iff.mp h
  obtain ⟨built, simulation, h⟩ := bind_ok_iff.mp h
  cases pure_ok_iff.mp h
  simp only [Bool.and_eq_true, decide_eq_true_eq] at facts
  obtain ⟨ascending, mappings⟩ := facts
  rw [← @build_of_ascending chain t 1 selected rightAngle plainConfig structured _ sim hsim
    hselected ascending] at simulation
  have first : (built.1.directions.map (·.mapping))[0]? = some 0 := by
    rw [mappings]
    rfl
  rw [List.getElem?_map] at first
  obtain ⟨direction, hd, _⟩ := Option.map_eq_some_iff.mp first
  obtain ⟨y, hy, undone⟩ := @undone_of_build t rightAngle _ chain chain plainConfig plainConfig
    structured structured 1 built.1 built.2 network simulation 0 direction hd
  exact ⟨structured, t, built.1, built.2, network, simulation, mappings, direction, y, hd, hy,
    undone⟩

end CrystalModel.SimulationModel
