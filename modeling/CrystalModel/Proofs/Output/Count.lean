import CrystalModel.Proofs.Output.Build
import CrystalModel.Proofs.Reference.Validation

/-! # No blob takes the place of another

A set keeps the newest blob of a key and forgets the others. It loses nothing: the ids of the
models are their places, whatever data they were built from, so every blob has a key of its own,
and the size of a set is known before it is put out. -/
namespace CrystalModel

open Binary (BlobSet BlobType)

namespace KeyedBlob

theorem length_toSet {simulation : Nat} {blobs : List KeyedBlob}
    (distinct : (blobs.map key).Nodup) : (toSet simulation blobs).length = blobs.length := by
  induction blobs using List.reverseRecOn with
  | nil => rfl
  | append_singleton front last ih =>
    rw [List.map_append, List.nodup_append] at distinct
    obtain ⟨before, _, apart⟩ := distinct
    have new : keyText simulation last.kind last.id ∉ (toSet simulation front).keys := by
      intro known
      obtain ⟨b, hb, same⟩ := mem_keys_toSet.mp known
      obtain ⟨_, kind, id⟩ := keyText_eq same
      exact apart _ (List.mem_map_of_mem hb) last.key (by simp) (Prod.ext kind id)
    rw [toSet_append, Catalog.length_insert new, ih before, List.length_append,
      List.length_singleton]

theorem length_keysOf (kinds : List BlobType) (ids : List (Option Nat)) :
    (keysOf kinds ids).length = kinds.length * ids.length := by
  simp [keysOf, Nat.mul_comm]

end KeyedBlob

open KeyedBlob

namespace StageResults

variable {c c' : StageResults} {s s' : SimulationModel} {set set' : BlobSet}

theorem toSet_of_blobs (h : c.blobs s = .ok set) : ∃ listed, set = toSet s.simulation listed := by
  obtain ⟨_, _, _, same⟩ := complete_of_blobs h
  rw [same] at h
  obtain ⟨_, _, _, _, _, _, _, listed⟩ := blobs_ok h
  exact ⟨_, listed⟩

theorem ordered_of_blobs (h : c.blobs s = .ok set) : set.Ordered := by
  obtain ⟨listed, rfl⟩ := toSet_of_blobs h
  exact toSet_ordered _ listed

theorem keys_of_blobs (h : c.blobs s = .ok set) {k : String} (hk : k ∈ set.keys) :
    ∃ kind id, k = keyText s.simulation kind id := by
  obtain ⟨_, rfl⟩ := toSet_of_blobs h
  obtain ⟨b, _, rfl⟩ := mem_keys_toSet.mp hk
  exact ⟨b.kind, b.id, rfl⟩

/-- The models of an output come from their builders, each of them from data of its own. The
mapping of a direction is looked up without a check, so it has to be there. -/
structure BuiltFor [Trigonometry] [RandomSeeds] (c : StageResults) (s : SimulationModel) :
    Prop where
  energy : ∀ energy, c.energy = some energy → ∃ r r' config config' structured,
    CrystalStructure.build r config = .ok structured ∧
    Energetics.build r' config' structured = .ok energy
  simulation : ∃ r config structured t index issues,
    SimulationModel.build r config structured t index = .ok (s, issues)
  mappings : ∀ t, c.transition = some t → ∀ x ∈ s.directions,
    ∃ y, t.mappings[x.mapping]? = some y

variable [Trigonometry] [d : RandomSeeds]

/-- Models of one pass are built for each other. -/
theorem builtFor_of_build {r : ReferenceData} {config : Config} {structured : CrystalStructure}
    {energy : Energetics} {t : TransitionNetwork} {sims : List SimulationModel} {index : Nat}
    {issues : List Issue} (structural : CrystalStructure.build r config = .ok structured)
    (powered : Energetics.build r config structured = .ok energy)
    (built : SimulationModel.build r config structured t index = .ok (s, issues)) :
    BuiltFor ⟨some structured, some energy, some t, sims⟩ s where
  energy := by
    intro _ given
    cases given
    exact ⟨r, r, config, config, structured, structural, powered⟩
  simulation := ⟨r, config, structured, t, index, issues, built⟩
  mappings := by
    intro _ given
    cases given
    exact (SimulationModel.numbered_of_build built).mappings

/-- A set holds as many blobs as the models ask for, each under a key of its own. -/
theorem length_of_blobs (built : BuiltFor c s) (h : c.blobs s = .ok set) :
    ∃ structured energy, c.structured = some structured ∧ c.energy = some energy ∧
      set.length = 5 + 2 * structured.cellPositions.length + energy.pairTables.length +
        3 * energy.groupTables.length + 2 * s.directions.length + s.collections.length := by
  obtain ⟨structured, energy, t, same⟩ := complete_of_blobs h
  rw [same] at h built
  obtain ⟨r, r', config, config', own, structural, powered⟩ := built.energy energy rfl
  obtain ⟨_, _, _, _, _, _, simulated⟩ := built.simulation
  have numbered : s.Numbered t :=
    { SimulationModel.numbered_of_build simulated with mappings := built.mappings t rfl }
  have charged := Energetics.numbered_of_build (CrystalStructure.sound_of_build structural) powered
  obtain ⟨info, energies, tables, _, _, henergies, htables, rfl⟩ := blobs_ok h
  refine ⟨structured, energy, by rw [same], by rw [same], ?_⟩
  have pairs := congrArg List.length charged.1
  have groups := congrArg List.length charged.2
  rw [List.length_map, List.length_range] at pairs groups
  rw [length_toSet (listed_nodup info charged numbered henergies htables), ← List.length_map,
    listed_keys info charged numbered henergies htables, pairs, groups]
  simp only [List.flatMap_cons, List.flatMap_nil, List.length_append, length_keysOf, numbers,
    List.length_map, List.length_range, List.length_cons, List.length_nil]
  omega

/-- No blob takes the place of another one. A key belongs to one simulation, kind and id; a set
has its blobs under different keys and holds as many of them as the models ask for; and the sets
of two simulations share no key. -/
theorem blobs_apart :
    (∀ simulation simulation' kind kind' id id',
      keyText simulation kind id = keyText simulation' kind' id' →
        simulation = simulation' ∧ kind = kind' ∧ id = id') ∧
    (∀ c s set, BuiltFor c s → blobs c s = .ok set →
      set.Ordered ∧ ∃ structured energy, c.structured = some structured ∧
        c.energy = some energy ∧
        set.length = 5 + 2 * structured.cellPositions.length + energy.pairTables.length +
          3 * energy.groupTables.length + 2 * s.directions.length + s.collections.length) ∧
    ∀ c c' s s' set set', blobs c s = .ok set → blobs c' s' = .ok set' →
      s.simulation ≠ s'.simulation → set.keys.Disjoint set'.keys := by
  refine ⟨fun _ _ _ _ _ _ => keyText_eq, ?_, ?_⟩
  · intro c s set built h
    exact ⟨ordered_of_blobs h, length_of_blobs built h⟩
  · intro c c' s s' set set' h h' differ k hk hk'
    obtain ⟨_, _, rfl⟩ := keys_of_blobs h hk
    obtain ⟨_, _, same⟩ := keys_of_blobs h' hk'
    exact differ (keyText_eq same).1

end StageResults

def ReferenceData.drifts : ReferenceData := { twoChains with
  simulations := twoChains.simulations.modify 0 ({ · with kind := .kinetic }) }

open ReferenceData SimulationModel in
theorem drifts_apart : ∃ c s s' set set', StageResults.blobs c s = .ok set ∧
    StageResults.blobs c s' = .ok set' ∧ set.Ordered ∧ set.length = 20 ∧
    set.keys.Disjoint set'.keys := by
  have found : (do
      let structured ← @CrystalStructure.build rightAngle drifts plainConfig
      let energy ← Energetics.build drifts plainConfig structured
      let t ← @TransitionNetwork.build rightAngle drifts plainConfig structured
      let sim ← checked drifts 0
      let selected ← sim.transitions.foldlM (select drifts t sim 0) []
      let built ← @ofSelection rightAngle _ drifts plainConfig structured t 0 sim selected
      let _ ← StageResults.blobs ⟨some structured, some energy, some t, []⟩ built.1
      let sim' ← checked drifts 1
      let selected' ← sim'.transitions.foldlM (select drifts t sim' 1) []
      let built' ← @ofSelection rightAngle _ drifts plainConfig structured t 1 sim' selected'
      let _ ← StageResults.blobs ⟨some structured, some energy, some t, []⟩ built'.1
      return (structured, energy, t, selected, built.1, built'.1) : Except BuildError
        (CrystalStructure × Energetics × TransitionNetwork × List Nat × SimulationModel ×
          SimulationModel)).toOption.any
      fun (structured, energy, t, selected, s, s') =>
        decide (selected.Pairwise fun a b => idOf t a ≤ idOf t b) &&
        decide (s.simulation = 0 ∧ s'.simulation = 1 ∧ structured.cellPositions.length = 2 ∧
          energy.pairTables.length = 2 ∧ energy.groupTables.length = 1 ∧
          s.directions.length = 2 ∧ s.collections.length = 2) := by decide +kernel
  obtain ⟨⟨structured, energy, t, selected, s, s'⟩, h, facts⟩ := ok_of_any found
  obtain ⟨_, structural, h⟩ := bind_ok_iff.mp h
  obtain ⟨_, powered, h⟩ := bind_ok_iff.mp h
  obtain ⟨_, _, h⟩ := bind_ok_iff.mp h
  obtain ⟨sim, hsim, h⟩ := bind_ok_iff.mp h
  obtain ⟨_, hselected, h⟩ := bind_ok_iff.mp h
  obtain ⟨built, simulated, h⟩ := bind_ok_iff.mp h
  obtain ⟨set, output, h⟩ := bind_ok_iff.mp h
  obtain ⟨_, _, h⟩ := bind_ok_iff.mp h
  obtain ⟨_, _, h⟩ := bind_ok_iff.mp h
  obtain ⟨built', _, h⟩ := bind_ok_iff.mp h
  obtain ⟨set', output', h⟩ := bind_ok_iff.mp h
  cases pure_ok_iff.mp h
  simp only [Bool.and_eq_true, decide_eq_true_eq] at facts
  obtain ⟨ascending, number, number', positions, pairs, groups, directions, collections⟩ := facts
  rw [← @build_of_ascending drifts t 0 selected rightAngle plainConfig structured _ sim hsim
    hselected ascending] at simulated
  obtain ⟨_, counted, apart⟩ := @StageResults.blobs_apart rightAngle _
  have fit :=
    @StageResults.builtFor_of_build built.1 rightAngle _ _ _ _ _ _ [] _ _ structural powered
    simulated
  obtain ⟨ordered, _, _, given, charged, size⟩ := counted _ _ _ fit output
  cases given
  cases charged
  rw [positions, pairs, groups, directions, collections] at size
  exact ⟨_, _, _, set, set', output, output', ordered, size,
    apart _ _ _ _ _ _ output output' (by rw [number, number']; decide)⟩

end CrystalModel
