import CrystalModel.Proofs.Output.Build
import CrystalModel.Proofs.Reference.Validation
import CrystalModel.Proofs.Transition.Ring

/-! # Rejected rings

The output of a simulation is refused for a ring among its directions. Of the authored paths only
exchanges of a position with itself come that far. -/
namespace CrystalModel

theorem format_not_ring {α : Type} {x : Except Binary.FormatError α} {k : Nat} :
    x.mapError BuildError.format ≠ .error (.ring k) := by
  cases x <;> simp [Except.mapError]

namespace SimulationModel

variable {s : SimulationModel} {structured : CrystalStructure} {t : TransitionNetwork} {k : Nat}

theorem counted_not_ring {what : String} {count : Option Int32} :
    s.counted what count ≠ .error (.ring k) := by
  unfold counted
  cases count <;> simp

theorem latticeRecord_not_ring : s.latticeRecord structured ≠ .error (.ring k) := by
  intro h
  rcases bind_error_iff.mp h with h | ⟨_, _, h⟩
  · exact counted_not_ring h
  rcases bind_error_iff.mp h with h | ⟨_, _, h⟩
  · exact counted_not_ring h
  rcases bind_error_iff.mp h with h | ⟨_, _, h⟩
  · exact counted_not_ring h
  rcases bind_error_iff.mp h with h | ⟨_, _, h⟩
  · exact counted_not_ring h
  cases h

theorem checkPaths_cases (s : SimulationModel) (t : TransitionNetwork) :
    (s.checkPaths t = .ok () ∧ ∀ x ∈ s.mappedDirections t, ¬x.2.IsRing) ∨
      ∃ k, s.checkPaths t = .error (.ring k) ∧ ∃ x ∈ s.mappedDirections t, x.2.IsRing := by
  cases h : s.checkPaths t with
  | ok u =>
    refine Or.inl ⟨rfl, fun ⟨direction, y⟩ hx ring => ?_⟩
    have fine := forM_ok_iff.mp h _ hx
    simp only at fine
    rw [if_pos (isCrystalRing_iff.mpr ring)] at fine
    cases fine
  | error e =>
    obtain ⟨⟨direction, y⟩, hx, failed⟩ := forM_error h
    simp only at failed
    split at failed
    · next ring =>
      cases failed
      exact Or.inr ⟨_, rfl, _, hx, isCrystalRing_iff.mp ring⟩
    · cases failed

theorem checkPaths_ring_iff : (∃ k, s.checkPaths t = .error (.ring k)) ↔
    ∃ x ∈ s.mappedDirections t, x.2.IsRing := by
  rcases s.checkPaths_cases t with ⟨fine, openPath⟩ | ⟨k, failed, ring⟩
  · simp only [fine, reduceCtorEq, exists_false, false_iff, not_exists, not_and]
    exact openPath
  · exact iff_of_true ⟨k, failed⟩ ring

variable [Trigonometry] [d : RandomSeeds] {r : ReferenceData} {config : Config} {index : Nat}
  {issues : List Issue}

theorem ring_direction_iff (h : build r config structured t index = .ok (s, issues)) :
    (∃ x ∈ s.mappedDirections t, x.2.IsRing) ↔
      ∃ n ∈ s.transitions, ∃ m, t.transitions[n]? = some m ∧ t.HasRing m := by
  constructor
  · rintro ⟨⟨direction, y⟩, hx, ring⟩
    obtain ⟨d, hd⟩ := List.mem_iff_getElem?.mp hx
    obtain ⟨_, n, m, directed⟩ := mappedDirections_directed h hd
    exact ⟨n, List.mem_of_getElem? directed.selected, m, directed.model,
      direction.mapping, directed.listed, y, directed.mapping, ring⟩
  · rintro ⟨n, hn, m, hm, id, hid, y, hy, ring⟩
    obtain ⟨c, hc⟩ := List.mem_iff_getElem?.mp hn
    obtain ⟨sim, _, _, _, _, _, hdirections, _⟩ := build_ok h
    have among : (c, id, y) ∈ selectedMappings t s.transitions :=
      mem_selectedMappings.mpr ⟨n, m, hc, hm, hid, hy⟩
    obtain ⟨d, hd⟩ := List.mem_iff_getElem?.mp among
    have hmapped := mappedDirections_getElem? h d
    rw [hdirections, directionsOf_getElem?, hd] at hmapped
    simp only [Option.map_some, Option.bind_some, hy] at hmapped
    exact ⟨_, List.mem_of_getElem? hmapped, ring⟩

end SimulationModel

namespace StageResults

variable {structured : CrystalStructure} {energy : Energetics} {t : TransitionNetwork}
  {sims : List SimulationModel} {s : SimulationModel}

/-- The output is refused for a ring when the check of its paths is. -/
theorem blobs_ring_iff : (∃ k, blobs ⟨some structured, some energy, some t, sims⟩ s =
    .error (.ring k)) ↔ ∃ k, s.checkPaths t = .error (.ring k) := by
  have unfolded : blobs ⟨some structured, some energy, some t, sims⟩ s =
      (s.checkPaths t >>= fun _ => s.latticeRecord structured >>= fun info =>
        energy.blobs.mapError .format >>= fun energies =>
          (s.blobsOfJumps t).mapError .format >>= fun jumps =>
            pure (KeyedBlob.toSet s.simulation
              ([.ofRecords .latticeInfo none [info]] ++ structured.blobs ++ energies ++ jumps))) :=
    rfl
  rw [unfolded]
  refine exists_congr fun k => ⟨fun h => ?_, fun h => bind_error_iff.mpr (Or.inl h)⟩
  rcases bind_error_iff.mp h with h | ⟨_, _, h⟩
  · exact h
  rcases bind_error_iff.mp h with h | ⟨_, _, h⟩
  · exact absurd h SimulationModel.latticeRecord_not_ring
  rcases bind_error_iff.mp h with h | ⟨_, _, h⟩
  · exact absurd h format_not_ring
  rcases bind_error_iff.mp h with h | ⟨_, _, h⟩
  · exact absurd h format_not_ring
  cases h

end StageResults

section Built

variable [Trigonometry] [d : RandomSeeds] {r : ReferenceData} {config : Config}
  {structured : CrystalStructure} {t : TransitionNetwork} {index : Nat} {s : SimulationModel}
  {issues : List Issue}

/-- A simulation comes to its output with a ring when it lists an exchange of a position with
itself, or a jump whose appended model meets a position twice. Nothing else is refused as a ring. -/
theorem ring_rejected_iff (structural : CrystalStructure.build r config = .ok structured)
    (network : TransitionNetwork.build r config structured = .ok t)
    (built : SimulationModel.build r config structured t index = .ok (s, issues))
    (energy : Energetics) (sims : List SimulationModel) :
    (∃ k, StageResults.blobs ⟨some structured, some energy, some t, sims⟩ s = .error (.ring k)) ↔
      ∃ sim, r.simulations[index]? = some sim ∧ ∃ reference ∈ sim.transitions,
        (sim.kind = .metropolis ∧ ∃ m, r.metropolisTransitions[reference]? = some m ∧
          m.isActive ∧ m.SharesPosition structured) ∨
        (sim.kind = .kinetic ∧ ∃ n ∈ t.versionsOf .kinetic reference, ∃ m,
          t.transitions[n]? = some m ∧ m.isInverse = true ∧ t.HasRing m) := by
  obtain ⟨split, arranged⟩ := TransitionNetwork.arranged_of_build network
  have sound := CrystalStructure.sound_of_build structural
  obtain ⟨sim, hsim, hselection, _⟩ := SimulationModel.build_ok built
  have listed := (SimulationModel.checked_ok hsim).1
  obtain ⟨selects, _⟩ := SimulationModel.selection_ok hselection
  rw [StageResults.blobs_ring_iff, SimulationModel.checkPaths_ring_iff,
    SimulationModel.ring_direction_iff built]
  constructor
  · rintro ⟨n, hn, m, hm, ring⟩
    obtain ⟨reference, hreference, version⟩ := (selects.mem n).mp hn
    obtain ⟨m', hm', kind, same⟩ := TransitionNetwork.mem_versionsOf.mp version
    rw [hm, Option.some.injEq] at hm'
    subst hm'
    refine ⟨sim, listed, reference, hreference, ?_⟩
    cases hkind : sim.kind with
    | kinetic =>
      rw [hkind] at kind version
      exact Or.inr ⟨rfl, n, version, m, hm, arranged.inverse_of_ring hm kind ring, ring⟩
    | metropolis =>
      rw [hkind] at kind
      obtain ⟨k, hk, active, index, shares⟩ := arranged.shared_of_ring sound hm kind ring
      obtain ⟨place, hplace⟩ := List.mem_iff_getElem?.mp hk
      rw [ReferenceData.metropolisTransition_index sound.places hplace, same] at index
      exact Or.inl ⟨rfl, k, index ▸ hplace, active, shares⟩
  · rintro ⟨sim', hsim', reference, hreference, cause⟩
    rw [listed, Option.some.injEq] at hsim'
    subst hsim'
    rcases cause with ⟨kind, k, hk, active, shares⟩ | ⟨kind, n, version, m, hm, _, ring⟩
    · obtain ⟨n, m, hm, hkind, same, ring⟩ :=
        arranged.ring_of_shared sound (List.mem_of_getElem? hk) active shares
      have index := ReferenceData.metropolisTransition_index sound.places hk
      refine ⟨n, (selects.mem n).mpr ⟨reference, hreference, ?_⟩, m, hm, ring⟩
      exact TransitionNetwork.mem_versionsOf.mpr ⟨m, hm, hkind.trans kind.symm, same.trans index⟩
    · refine ⟨n, (selects.mem n).mpr ⟨reference, hreference, ?_⟩, m, hm, ring⟩
      rw [kind]
      exact version

end Built

open ReferenceData in
theorem chain_ring_rejected : ∃ structured energy t s k,
    @CrystalStructure.build rightAngle chain plainConfig = .ok structured ∧
    Energetics.build chain plainConfig structured = .ok energy ∧
    @TransitionNetwork.build rightAngle chain plainConfig structured = .ok t ∧
    (∃ issues, @SimulationModel.build rightAngle _ chain plainConfig structured t 0 =
      .ok (s, issues)) ∧
    StageResults.blobs ⟨some structured, some energy, some t, []⟩ s = .error (.ring k) := by
  have found : (do
      let structured ← @CrystalStructure.build rightAngle chain plainConfig
      let energy ← Energetics.build chain plainConfig structured
      let t ← @TransitionNetwork.build rightAngle chain plainConfig structured
      let _ ← @SimulationModel.build rightAngle _ chain plainConfig structured t 0
      return energy : Except BuildError Energetics).toOption.any
        fun _ => true := by decide +kernel
  obtain ⟨energy, h, _⟩ := ok_of_any found
  obtain ⟨structured, structural, h⟩ := bind_ok_iff.mp h
  obtain ⟨_, powered, h⟩ := bind_ok_iff.mp h
  obtain ⟨t, network, h⟩ := bind_ok_iff.mp h
  obtain ⟨⟨s, issues⟩, built, h⟩ := bind_ok_iff.mp h
  cases pure_ok_iff.mp h
  have listed : ∃ sim, chain.simulations[0]? = some sim ∧ ∃ reference ∈ sim.transitions,
      sim.kind = .metropolis ∧ ∃ m, chain.metropolisTransitions[reference]? = some m ∧
        m.isActive ∧ m.site0 = m.site1 :=
    ⟨_, rfl, 0, by decide, rfl, _, rfl, by decide, rfl⟩
  obtain ⟨sim, hsim, reference, hreference, kind, m, hm, active, same⟩ := listed
  obtain ⟨k, refused⟩ :=
    (@ring_rejected_iff rightAngle _ _ _ _ _ _ _ _ structural network built energy []).mpr
      ⟨sim, hsim, reference, hreference, Or.inl ⟨kind, m, hm, active, Or.inl same⟩⟩
  exact ⟨structured, energy, t, s, k, structural, powered, network, ⟨issues, built⟩, refused⟩

end CrystalModel
