import CrystalModel.Proofs.Build.Verification

/-! # Simulations beside each other

The structure, the energies and the transitions are built without a look at the simulations, and
every simulation is built and encoded from them and from its own definition. So what else a pass
simulates does not show in the blobs of a simulation. -/
namespace CrystalModel

theorem keyed_once {κ α : Type} [BEq κ] [LawfulBEq κ] {P : κ → α → Prop} {keys : List κ}
    {entries : List (κ × α)} (aligned : List.Forall₂ (fun k x => x.1 = k ∧ P k x.2) keys entries)
    (nodup : keys.Nodup) {k : κ} (hk : k ∈ keys) :
    ∃ a, (entries.filter (·.1 == k)).map (·.2) = [a] ∧ P k a := by
  induction aligned with
  | nil => cases hk
  | @cons first x keys rest hx others ih =>
    obtain ⟨apart, distinct⟩ := List.nodup_cons.mp nodup
    obtain ⟨rfl, holds⟩ := hx
    by_cases here : x.1 = k
    · have none : rest.filter (·.1 == k) = [] := by
        refine List.filter_eq_nil_iff.mpr fun y hy same => ?_
        obtain ⟨_, among, key, _⟩ := aligned_mem_right others hy
        rw [beq_iff_eq] at same
        exact apart (by rw [here, ← same, key]; exact among)
      exact ⟨x.2, by simp [here, none], here ▸ holds⟩
    · have later : k ∈ keys := by
        rcases List.mem_cons.mp hk with same | later
        · exact absurd same.symm here
        · exact later
      obtain ⟨a, only, holds⟩ := ih distinct later
      exact ⟨a, by simpa [here] using only, holds⟩

namespace ReferenceData

variable {r : ReferenceData}

theorem simulation_index (places : r.checkPlaces = .ok ()) {k : Nat} {sim : Simulation}
    (hk : r.simulations[k]? = some sim) : sim.index = k := by
  have listed : (Domain.simulation, r.simulations.map (·.index)) ∈ r.indexLists := by
    simp [indexLists]
  exact index_of_getElem? places listed hk

theorem activeSimulations_nodup (places : r.checkPlaces = .ok ()) :
    (StageResults.activeSimulations r).Nodup := by
  have nodup : (r.simulations.map (·.index)).Nodup := by
    rw [(checkPlaces_ok_iff.mp places).numbered.simulations]
    exact List.nodup_range
  exact nodup.sublist (List.filter_sublist.map _)

end ReferenceData

def BuildResult.setsOf (m : BuildResult) (index : Nat) : List Binary.BlobSet :=
  (m.blobs.filter (·.1 == index)).map (·.2)

section Passes

variable [Trigonometry]

/-- The blob set of a simulation, made of the models of its data and of its own definition. -/
def Encodes [RandomSeeds] (r : ReferenceData) (config : Config) (index : Nat)
    (set : Binary.BlobSet) : Prop :=
  ∃ structured energy t s issues, CrystalStructure.build r config = .ok structured ∧
    Energetics.build r config structured = .ok energy ∧
    TransitionNetwork.build r config structured = .ok t ∧
    SimulationModel.build r config structured t index = .ok (s, issues) ∧
    StageResults.blobs ⟨some structured, some energy, some t, []⟩ s = .ok set

section Definition

variable {r : ReferenceData} {config : Config} {sims sims' : List Simulation}

theorem CrystalStructure.eq_of_builds {s s' : CrystalStructure}
    (h : build { r with simulations := sims } config = .ok s)
    (h' : build { r with simulations := sims' } config = .ok s') : s = s' := by
  obtain ⟨⟨⟩, _, h⟩ := bind_ok_iff.mp h
  obtain ⟨⟨⟩, _, h'⟩ := bind_ok_iff.mp h'
  exact Except.ok.inj (h.symm.trans h')

omit [Trigonometry] in
theorem Energetics.eq_of_builds {s : CrystalStructure} {e e' : Energetics}
    (h : build { r with simulations := sims } config s = .ok e)
    (h' : build { r with simulations := sims' } config s = .ok e') : e = e' := by
  obtain ⟨⟨⟩, _, h⟩ := bind_ok_iff.mp h
  obtain ⟨⟨⟩, _, h'⟩ := bind_ok_iff.mp h'
  exact Except.ok.inj (h.symm.trans h')

theorem TransitionNetwork.eq_of_builds {s : CrystalStructure} {t t' : TransitionNetwork}
    (h : build { r with simulations := sims } config s = .ok t)
    (h' : build { r with simulations := sims' } config s = .ok t') : t = t' := by
  obtain ⟨⟨⟩, _, h⟩ := bind_ok_iff.mp h
  obtain ⟨⟨⟩, _, h'⟩ := bind_ok_iff.mp h'
  exact Except.ok.inj (h.symm.trans h')

variable [d : RandomSeeds]

theorem SimulationModel.build_congr {index : Nat} (same : sims[index]? = sims'[index]?)
    (structured : CrystalStructure) (t : TransitionNetwork) :
    build { r with simulations := sims } config structured t index =
      build { r with simulations := sims' } config structured t index := by
  have definition : checked { r with simulations := sims } index =
      checked { r with simulations := sims' } index := by
    simp only [checked, same]
  rw [build, build, definition]
  rfl

/-- What a simulation is encoded to is settled by its own definition. -/
theorem Encodes.unique {index : Nat} {set set' : Binary.BlobSet}
    (same : sims[index]? = sims'[index]?)
    (h : Encodes { r with simulations := sims } config index set)
    (h' : Encodes { r with simulations := sims' } config index set') : set = set' := by
  obtain ⟨structured, energy, t, s, issues, structural, powered, network, built, output⟩ := h
  obtain ⟨structured', energy', t', s', issues', structural', powered', network', built',
    output'⟩ := h'
  obtain rfl := CrystalStructure.eq_of_builds structural structural'
  obtain rfl := Energetics.eq_of_builds powered powered'
  obtain rfl := TransitionNetwork.eq_of_builds network network'
  rw [SimulationModel.build_congr same] at built
  obtain ⟨rfl, _⟩ := Prod.mk.inj (Except.ok.inj (built.symm.trans built'))
  exact Except.ok.inj (output.symm.trans output')

end Definition

section Result

variable [d : RandomSeeds] {r : ReferenceData} {config : Config} {m : BuildResult}
  {events : List Event}

omit [Trigonometry] d in
theorem Pass.keyedBlobs_ok {c : StageResults} {s : SimulationModel} {x : Nat × Binary.BlobSet}
    (h : keyedBlobs c config s = .ok x) : x.1 = s.simulation ∧ c.blobs s = .ok x.2 := by
  obtain ⟨set, output, h⟩ := bind_ok_iff.mp h
  split at h
  · obtain ⟨⟨⟩, _, h⟩ := bind_ok_iff.mp h
    cases pure_ok_iff.mp h
    exact ⟨rfl, output⟩
  · cases pure_ok_iff.mp h
    exact ⟨rfl, output⟩

theorem blobs_of_compile (h : compile r config = (.ok m, events)) :
    List.Forall₂ (fun index x => x.1 = index ∧ Encodes r config index x.2)
      (StageResults.activeSimulations r) m.blobs := by
  obtain ⟨models, encoded⟩ := compile_ok_iff.mp ⟨_, _, h⟩
  obtain ⟨structured, energy, t, built, structural, powered, network, simulated, complete⟩ :=
    StageResults.models_ok_iff.mp models
  have keyed := mapM_ok_iff.mp encoded
  rw [← complete, List.forall₂_map_left_iff] at keyed
  refine aligned_trans simulated keyed fun index b x one output => ?_
  obtain ⟨number, output⟩ := Pass.keyedBlobs_ok output
  obtain ⟨_, _, _, place, _⟩ := SimulationModel.build_ok one
  exact ⟨number.trans place, structured, energy, t, b.1, b.2, structural, powered, network, one,
    output⟩

theorem setsOf_of_compile (h : compile r config = (.ok m, events)) {index : Nat}
    {sim : Simulation} (listed : r.simulations[index]? = some sim) (active : sim.isActive) :
    ∃ set, m.setsOf index = [set] ∧ Encodes r config index set := by
  have places : r.checkPlaces = .ok () := by
    obtain ⟨_, _, _, _, structural, _⟩ :=
      StageResults.models_ok_iff.mp (compile_ok_iff.mp ⟨_, _, h⟩).1
    obtain ⟨⟨⟩, places, _⟩ := bind_ok_iff.mp structural
    exact places
  refine keyed_once (blobs_of_compile h) (ReferenceData.activeSimulations_nodup places) ?_
  exact List.mem_map.mpr ⟨sim, List.mem_filter.mpr ⟨List.mem_of_getElem? listed, active⟩,
    ReferenceData.simulation_index places listed⟩

end Result

/-- Simulations do not influence each other, whatever seeds two passes could draw. -/
theorem simulations_isolated (first second : RandomSeeds) (r : ReferenceData) (config : Config)
    (seed : UInt64) (sims sims' : List Simulation) (index : Nat) (sim : Simulation)
    (m m' : BuildResult) (events events' : List Event) (listed : sims[index]? = some sim)
    (listed' : sims'[index]? = some sim) (active : sim.isActive)
    (h : compile (d := first) { r with simulations := sims }
      { config with fallbackSeed := some seed } = (.ok m, events))
    (h' : compile (d := second) { r with simulations := sims' }
      { config with fallbackSeed := some seed } = (.ok m', events')) :
    ∃ set, m.setsOf index = [set] ∧ m'.setsOf index = [set] := by
  have undrawn : ({ r with simulations := sims' }.redraw { config with fallbackSeed := some seed }
      first second).Agrees := by
    rintro _ ⟨missing, _⟩
    cases missing
  rw [← undrawn.pass (compile_alike _ _ first second)] at h'
  obtain ⟨set, sets, encoded⟩ := setsOf_of_compile (d := first) h listed active
  obtain ⟨set', sets', encoded'⟩ := setsOf_of_compile (d := first) h' listed' active
  obtain rfl := Encodes.unique (d := first) (listed.trans listed'.symm) encoded encoded'
  exact ⟨set, sets, sets'⟩

theorem compile_of_encoded [d : RandomSeeds] {r : ReferenceData} {config : Config}
    {structured : CrystalStructure}
    {energy : Energetics} {t : TransitionNetwork} {built : List (SimulationModel × List Issue)}
    (quiet : config.verifyOutput = false)
    (structural : CrystalStructure.build r config = .ok structured)
    (powered : Energetics.build r config structured = .ok energy)
    (network : TransitionNetwork.build r config structured = .ok t)
    (simulated : List.Forall₂ (fun index b =>
      SimulationModel.build r config structured t index = .ok b)
      (StageResults.activeSimulations r) built)
    (encoded : ∀ b ∈ built, ∃ set,
      StageResults.blobs ⟨some structured, some energy, some t, []⟩ b.1 = .ok set) :
    ∃ m events, compile r config = (.ok m, events) := by
  have models := StageResults.models_ok_iff.mpr
    ⟨structured, energy, t, built, structural, powered, network, simulated, rfl⟩
  obtain ⟨blobs, written⟩ : ∃ blobs, Pass.allBlobs
      ⟨some structured, some energy, some t, built.map (·.1)⟩ config = .ok blobs := by
    refine mapM_succeeds_iff.mpr fun s hs => ?_
    obtain ⟨b, hb, rfl⟩ := List.mem_map.mp hs
    obtain ⟨set, output⟩ := encoded b hb
    refine ⟨(b.1.simulation, set), bind_ok_iff.mpr ⟨set, output, ?_⟩⟩
    rw [quiet]
    rfl
  obtain ⟨issues, events, run⟩ := compile_ok_iff.mpr ⟨models, written⟩
  exact ⟨_, events, run⟩

end Passes

def ReferenceData.quietConfig : Config := { plainConfig with verifyOutput := false }

/-- The drift beside a second one, across the field and on a larger and warmer lattice. -/
def ReferenceData.twoDrifts : ReferenceData := { drift with
  simulations := drift.simulations ++ [⟨2, "across", .kinetic, [0, 0], ⟨0.0, 1.0, 0.0⟩, 1.0e7,
    2000.0, ⟨5, 5, 5⟩, none, 200, .active⟩] }

open ReferenceData SimulationModel in
theorem twoDrifts_compiles : ∃ m events,
    @compile rightAngle _ twoDrifts quietConfig = (.ok m, events) := by
  have found : (do
      let structured ← @CrystalStructure.build rightAngle twoDrifts quietConfig
      let energy ← Energetics.build twoDrifts quietConfig structured
      let t ← @TransitionNetwork.build rightAngle twoDrifts quietConfig structured
      let first ← checked twoDrifts 1
      let along ← first.transitions.foldlM (select twoDrifts t first 1) []
      let (s, _) ← @ofSelection rightAngle _ twoDrifts quietConfig structured t 1 first along
      let _ ← StageResults.blobs ⟨some structured, some energy, some t, []⟩ s
      let second ← checked twoDrifts 2
      let across ← second.transitions.foldlM (select twoDrifts t second 2) []
      let (s, _) ← @ofSelection rightAngle _ twoDrifts quietConfig structured t 2 second across
      let _ ← StageResults.blobs ⟨some structured, some energy, some t, []⟩ s
      return (t, along, across) : Except BuildError
        (TransitionNetwork × List Nat × List Nat)).toOption.any fun (t, along, across) =>
          decide (along.Pairwise fun a b => idOf t a ≤ idOf t b) &&
          decide (across.Pairwise fun a b => idOf t a ≤ idOf t b) := by
    decide +kernel
  obtain ⟨⟨t, along, across⟩, h, facts⟩ := ok_of_any found
  obtain ⟨structured, structural, h⟩ := bind_ok_iff.mp h
  obtain ⟨energy, powered, h⟩ := bind_ok_iff.mp h
  obtain ⟨_, network, h⟩ := bind_ok_iff.mp h
  obtain ⟨first, hfirst, h⟩ := bind_ok_iff.mp h
  obtain ⟨_, halong, h⟩ := bind_ok_iff.mp h
  obtain ⟨⟨s, issues⟩, one, h⟩ := bind_ok_iff.mp h
  obtain ⟨set, output, h⟩ := bind_ok_iff.mp h
  obtain ⟨second, hsecond, h⟩ := bind_ok_iff.mp h
  obtain ⟨_, hacross, h⟩ := bind_ok_iff.mp h
  obtain ⟨⟨s', issues'⟩, other, h⟩ := bind_ok_iff.mp h
  obtain ⟨set', output', h⟩ := bind_ok_iff.mp h
  cases pure_ok_iff.mp h
  simp only [Bool.and_eq_true, decide_eq_true_eq] at facts
  rw [← @build_of_ascending _ _ _ _ rightAngle _ _ _ _ hfirst halong facts.1] at one
  rw [← @build_of_ascending _ _ _ _ rightAngle _ _ _ _ hsecond hacross facts.2] at other
  have active : StageResults.activeSimulations twoDrifts = [1, 2] := by decide
  refine @compile_of_encoded rightAngle _ _ _ _ _ _ [(s, issues), (s', issues')] rfl structural
    powered network (active ▸ .cons one (.cons other .nil)) ?_
  simp only [List.mem_cons, List.not_mem_nil, or_false, forall_eq_or_imp, forall_eq]
  exact ⟨⟨set, output⟩, set', output'⟩

open ReferenceData in
theorem drift_isolated : ∃ m m' events events',
    @compile rightAngle _ drift quietConfig = (.ok m, events) ∧
    @compile rightAngle _ twoDrifts quietConfig = (.ok m', events') ∧
    ∃ set, m.setsOf 1 = [set] ∧ m'.setsOf 1 = [set] := by
  obtain ⟨structured, energy, t, s, issues, set, structural, powered, network, simulation, output,
    _⟩ := drift_output
  have active : StageResults.activeSimulations drift = [1] := by decide
  obtain ⟨m, events, alone⟩ :=
    @compile_of_encoded rightAngle _ drift quietConfig structured energy t
    [(s, issues)] rfl structural powered network (active ▸ .cons simulation .nil)
    (by simpa using ⟨set, output⟩)
  obtain ⟨m', events', beside⟩ := twoDrifts_compiles
  refine ⟨m, m', events, events', alone, beside, ?_⟩
  exact @simulations_isolated rightAngle _ _ drift quietConfig 0 drift.simulations
    twoDrifts.simulations 1 _ m m' events events' rfl rfl rfl alone beside

end CrystalModel
