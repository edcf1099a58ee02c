import CrystalModel.Proofs.Build.Seeds
import CrystalModel.Proofs.Output.Integrity

/-! # Verification of a pass

Every blob of an output is made in the way that it is read again. So verification finds nothing, and
a pass returns the same with and without it, apart from the seeds that it draws. -/
namespace CrystalModel

namespace StageResults

variable {c : StageResults} {s : SimulationModel} {set : Binary.BlobSet}

/-- The check never refuses an output whose elements can be counted. -/
theorem verifyBlobs_of_blobs (h : c.blobs s = .ok set) (countable : ∀ b ∈ set.values, b.Countable) :
    verifyBlobs set = .ok () := by
  obtain ⟨structured, energy, t, complete⟩ := complete_of_blobs h
  rw [complete] at h
  obtain ⟨info, energies, tables, _, _, henergies, htables, rfl⟩ := blobs_ok h
  refine mapError_ok_iff.mpr (forM_ok_iff.mpr fun blob hblob => ?_)
  obtain ⟨b, hb, rfl⟩ := KeyedBlob.values_toSet hblob
  exact (s.listed_made info structured t henergies htables b hb).passes (countable _ hblob)

end StageResults

section Passes

variable [Trigonometry] [d : RandomSeeds] {r : ReferenceData} {config : Config}

def Countable (r : ReferenceData) (config : Config) : Prop :=
  ∀ c, StageResults.models r config = .ok c → ∀ s ∈ c.simulations, ∀ set, c.blobs s = .ok set →
    ∀ b ∈ set.values, b.Countable

namespace Pass

omit [Trigonometry] d in
theorem keyedBlobs_verifying {c : StageResults} {s : SimulationModel}
    (countable : ∀ set, c.blobs s = .ok set → ∀ b ∈ set.values, b.Countable) (on : Bool) :
    keyedBlobs c { config with verifyOutput := on } s = (c.blobs s).map (s.simulation, ·) := by
  unfold keyedBlobs
  cases h : c.blobs s with
  | error e => rfl
  | ok set =>
    cases on with
    | false => rfl
    | true =>
      have passed := StageResults.verifyBlobs_of_blobs h (countable set h)
      change (verifyBlobs set >>= fun _ => pure (s.simulation, set)) = _
      rw [passed]
      rfl

theorem allStages_verifying (countable : Countable r config) :
    allStages r { config with verifyOutput := true } =
      allStages r { config with verifyOutput := false } := by
  have front (on : Bool) : modelStages r { config with verifyOutput := on } =
      modelStages r config := rfl
  rw [allStages_eq, allStages_eq, front, front]
  refine bind_congr fun c returned => ?_
  have each := countable c (returns_modelStages returned)
  have blobs : allBlobs c { config with verifyOutput := true } =
      allBlobs c { config with verifyOutput := false } :=
    mapM_congr (List.forall₂_same.mpr fun s hs =>
      (keyedBlobs_verifying (each s hs) true).trans (keyedBlobs_verifying (each s hs) false).symm)
  rw [blobs]

end Pass

theorem compile_verifying (countable : Countable r config) :
    compile r { config with verifyOutput := true } =
      compile r { config with verifyOutput := false } := by
  rw [compile, compile, Pass.allStages_verifying countable]

omit d in
theorem sink_alike {σ : Type} [Sink σ] (r : ReferenceData) (config : Config) (sink : σ)
    (first second : RandomSeeds) : (compileTo (d := first) r config sink).2.2 =
      (compileTo (d := second) r config sink).2.2 := by
  obtain ⟨both, _⟩ := compile_alike r config first second
  unfold compileTo persist
  generalize compile (d := first) r config = pass, compile (d := second) r config = pass' at both
  obtain ⟨result, events⟩ := pass
  obtain ⟨result', events'⟩ := pass'
  cases both with
  | error _ => rfl
  | ok related =>
    dsimp only
    rw [related.blobs]
    rcases Sink.publish sink _ with ⟨_ | _, _⟩ <;> rfl

/-- Verification refuses no output that can be counted. So a pass ends with and without it in the
same way, whether its blobs are kept or go to a sink: a pass that draws other seeds differs in them
only, and one that draws the same seeds, or none, does not differ at all. -/
theorem verification_never_refuses :
    (∀ (c : StageResults) (s : SimulationModel) (set : Binary.BlobSet), c.blobs s = .ok set →
      (∀ b ∈ set.values, b.Countable) → verifyBlobs set = .ok ()) ∧
    ∀ r config, Countable r config →
      (compile r { config with verifyOutput := true } =
          compile r { config with verifyOutput := false } ∧
        ∀ {σ : Type} [Sink σ] (sink : σ),
          compileTo r { config with verifyOutput := true } sink =
            compileTo r { config with verifyOutput := false } sink) ∧
      ∀ other : RandomSeeds,
        (r.redraw config d other).AlikePass
          (compile (d := d) r { config with verifyOutput := true })
          (compile (d := other) r { config with verifyOutput := false }) ∧
        ((r.redraw config d other).Agrees →
          compile (d := d) r { config with verifyOutput := true } =
            compile (d := other) r { config with verifyOutput := false }) ∧
        ∀ {σ : Type} [Sink σ] (sink : σ),
          (compileTo (d := d) r { config with verifyOutput := true } sink).2.2 =
            (compileTo (d := other) r { config with verifyOutput := false } sink).2.2 := by
  refine ⟨fun c s set output countable => StageResults.verifyBlobs_of_blobs output countable, ?_⟩
  intro r config countable
  have same := compile_verifying countable
  have stored {σ : Type} [Sink σ] (sink : σ) :
      compileTo r { config with verifyOutput := true } sink =
        compileTo r { config with verifyOutput := false } sink := by
    rw [compileTo, compileTo, same]
  refine ⟨⟨same, fun sink => stored sink⟩, fun other => ?_⟩
  have alike : (r.redraw config d other).AlikePass
      (compile (d := d) r { config with verifyOutput := false })
      (compile (d := other) r { config with verifyOutput := false }) :=
    compile_alike r { config with verifyOutput := false } d other
  refine ⟨?_, fun agrees => ?_, fun sink => ?_⟩
  · rw [same]
    exact alike
  · rw [same]
    exact agrees.pass alike
  · rw [stored sink]
    exact sink_alike r { config with verifyOutput := false } sink d other

end Passes

/-- Two chains with one simulation, the drift along the first of them. -/
def ReferenceData.drift : ReferenceData := { twoChains with
  simulations := twoChains.simulations.modify 0 ({ · with state := .deprecated }) }

open ReferenceData SimulationModel in
theorem drift_output : ∃ structured energy t s issues set,
    @CrystalStructure.build rightAngle drift plainConfig = .ok structured ∧
    Energetics.build drift plainConfig structured = .ok energy ∧
    @TransitionNetwork.build rightAngle drift plainConfig structured = .ok t ∧
    @SimulationModel.build rightAngle _ drift plainConfig structured t 1 = .ok (s, issues) ∧
    StageResults.blobs ⟨some structured, some energy, some t, [s]⟩ s = .ok set ∧
    ∀ b ∈ set.values, b.Countable := by
  have found : (do
      let structured ← @CrystalStructure.build rightAngle drift plainConfig
      let energy ← Energetics.build drift plainConfig structured
      let t ← @TransitionNetwork.build rightAngle drift plainConfig structured
      let sim ← checked drift 1
      let selected ← sim.transitions.foldlM (select drift t sim 1) []
      let (s, _) ← @ofSelection rightAngle _ drift plainConfig structured t 1 sim selected
      let _ ← StageResults.blobs ⟨some structured, some energy, some t, [s]⟩ s
      let info ← s.latticeRecord structured
      let energies ← energy.blobs.mapError .format
      let tables ← s.index.blobs.mapError .format
      return (t, selected, s.listed info structured t energies tables) : Except BuildError
        (TransitionNetwork × List Nat × List KeyedBlob)).toOption.any
      fun (t, selected, listed) =>
        decide (selected.Pairwise fun a b => idOf t a ≤ idOf t b) &&
        decide (∀ b ∈ listed, b.blob.Countable) := by decide +kernel
  obtain ⟨⟨t, selected, listed⟩, h, facts⟩ := ok_of_any found
  obtain ⟨structured, structural, h⟩ := bind_ok_iff.mp h
  obtain ⟨energy, powered, h⟩ := bind_ok_iff.mp h
  obtain ⟨_, network, h⟩ := bind_ok_iff.mp h
  obtain ⟨sim, hsim, h⟩ := bind_ok_iff.mp h
  obtain ⟨_, hselected, h⟩ := bind_ok_iff.mp h
  obtain ⟨⟨s, issues⟩, simulation, h⟩ := bind_ok_iff.mp h
  obtain ⟨set, output, h⟩ := bind_ok_iff.mp h
  obtain ⟨info, hinfo, h⟩ := bind_ok_iff.mp h
  obtain ⟨energies, henergies, h⟩ := bind_ok_iff.mp h
  obtain ⟨tables, htables, h⟩ := bind_ok_iff.mp h
  cases pure_ok_iff.mp h
  simp only [Bool.and_eq_true, decide_eq_true_eq] at facts
  rw [← @build_of_ascending drift t 1 selected rightAngle plainConfig structured _ sim hsim
    hselected facts.1] at simulation
  refine ⟨structured, energy, t, s, issues, set, structural, powered, network, simulation, output,
    fun blob hblob => ?_⟩
  obtain ⟨info', energies', tables', _, hinfo', henergies', htables', rfl⟩ :=
    StageResults.blobs_ok output
  cases hinfo.symm.trans hinfo'
  cases (mapError_ok_iff.mp henergies).symm.trans henergies'
  cases (mapError_ok_iff.mp htables).symm.trans htables'
  obtain ⟨b, hb, rfl⟩ := KeyedBlob.values_toSet hblob
  exact facts.2 b hb

open ReferenceData StageResults in
theorem drift_verified : ∃ c s set, @models rightAngle _ drift plainConfig = .ok c ∧
    c.simulations = [s] ∧ c.blobs s = .ok set ∧ verifyBlobs set = .ok () ∧
    @compile rightAngle _ drift { plainConfig with verifyOutput := true } =
      @compile rightAngle _ drift { plainConfig with verifyOutput := false } := by
  obtain ⟨structured, energy, t, s, issues, set, structural, powered, network, simulation, output,
    few⟩ := drift_output
  have active : activeSimulations drift = [1] := by decide
  have countable : @Countable rightAngle _ drift plainConfig := by
    intro c models
    obtain ⟨structured', energy', t', built, h₁, h₂, h₃, h₄, rfl⟩ :=
      (@models_ok_iff rightAngle _ _ _ _).mp models
    cases structural.symm.trans h₁
    cases powered.symm.trans h₂
    cases network.symm.trans h₃
    rw [active] at h₄
    cases h₄ with
    | cons one others =>
      cases others
      cases simulation.symm.trans one
      intro s' hs set' output'
      obtain rfl := List.mem_singleton.mp hs
      cases output.symm.trans output'
      exact few
  have models := (@models_ok_iff rightAngle _ drift plainConfig _).mpr
    ⟨structured, energy, t, [(s, issues)], structural, powered, network,
      active ▸ .cons simulation .nil, rfl⟩
  obtain ⟨passes, unchanged⟩ := @verification_never_refuses rightAngle _
  exact ⟨_, s, set, models, rfl, output, passes _ s set output few, (unchanged _ _ countable).1.1⟩

end CrystalModel
