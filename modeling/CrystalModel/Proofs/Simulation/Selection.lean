import CrystalModel.Proofs.Reference.Validation
import CrystalModel.Proofs.Simulation.Build

/-! # Transition lists as sets

A simulation selects models while it goes through its list of transitions, and sorts them by model
id afterwards. Ids are unique among the models of one kind, so what is selected depends on the
transitions that are listed, and neither on their order nor on repetitions. -/
namespace CrystalModel

namespace SimulationModel

open TransitionNetwork

variable {r : ReferenceData} {t : TransitionNetwork} {sim : Simulation} {index : Nat}
  {sims : List Simulation} {listed : List Nat}

theorem checked_relisted (hsim : r.simulations[index]? = some sim)
    (hsims : sims[index]? = some { sim with transitions := listed }) :
    checked { r with simulations := sims } index =
      (checked r index).map fun s => { s with transitions := listed } := by
  unfold checked
  rw [hsim, hsims]
  by_cases active : sim.isActive
  · have relisted : ({ sim with transitions := listed } : Simulation).isActive := active
    rw [Option.filter_some, Option.filter_some, if_pos active, if_pos relisted]
    dsimp only
    split
    · rfl
    · split <;> rfl
  · have relisted : ¬({ sim with transitions := listed } : Simulation).isActive := active
    rw [Option.filter_some, Option.filter_some, if_neg active, if_neg relisted]
    rfl

theorem selection_succeeds (valid : ∀ k ∈ sim.transitions, k < available r sim.kind) :
    ∃ selected, selection r t sim index = .ok selected := by
  obtain ⟨found, hfound⟩ : ∃ found, sim.transitions.foldlM (select r t sim index) [] = .ok found :=
    foldlM_succeeds (motive := fun _ => True) trivial
      fun k hk _ _ => ⟨_, if_pos (valid k hk), trivial⟩
  exact ⟨_, bind_ok_iff.mpr ⟨found, hfound, rfl⟩⟩

theorem eq_of_strict {xs ys : List Nat} (perm : xs.Perm ys)
    (left : xs.Pairwise fun a b => idOf t a < idOf t b)
    (right : ys.Pairwise fun a b => idOf t a < idOf t b) : xs = ys :=
  perm.eq_of_pairwise (fun _ _ _ _ ab ba => absurd ab (Nat.lt_asymm ba)) left right

theorem selection_of_perm {found selected : List Nat}
    (hfound : sim.transitions.foldlM (select r t sim index) [] = .ok found)
    (perm : found.Perm selected) (strict : selected.Pairwise fun a b => idOf t a < idOf t b) :
    selection r t sim index = .ok selected := by
  obtain ⟨sorted, made⟩ : ∃ sorted, selection r t sim index = .ok sorted :=
    ⟨_, bind_ok_iff.mpr ⟨found, hfound, rfl⟩⟩
  have among : sorted.Perm selected := by
    obtain ⟨_, hfound', made'⟩ := bind_ok_iff.mp made
    obtain rfl := Except.ok.inj (hfound.symm.trans hfound')
    rw [← pure_ok_iff.mp made']
    exact (List.mergeSort_perm found _).trans perm
  have distinct : sorted.Pairwise fun a b => idOf t a ≠ idOf t b :=
    (among.pairwise_iff Ne.symm).mpr (strict.imp Nat.ne_of_lt)
  have ascending : sorted.Pairwise fun a b => idOf t a < idOf t b :=
    ((selection_ok made).2.and distinct).imp fun h => Nat.lt_of_le_of_ne h.1 h.2
  rw [made, eq_of_strict among ascending strict]

section Networks

variable [Trigonometry] {r₀ : ReferenceData} {config₀ config : Config}
  {structured₀ structured : CrystalStructure} {split : Nat}

/-- The selected models are known by the set of the listed transitions. -/
theorem Selected.unique (arranged : Arranged r₀ config₀ structured₀ t split) {kind : SimulationKind}
    {listed listed' selected selected' : List Nat} (picked : Selected t kind listed selected)
    (picked' : Selected t kind listed' selected') (same : ∀ k, k ∈ listed ↔ k ∈ listed')
    (sorted : selected.Pairwise fun a b => idOf t a ≤ idOf t b)
    (sorted' : selected'.Pairwise fun a b => idOf t a ≤ idOf t b) : selected = selected' := by
  have perm : selected.Perm selected' := by
    refine (List.perm_ext_iff_of_nodup picked.nodup picked'.nodup).mpr fun n => ?_
    simp only [picked.mem, picked'.mem, same]
  exact eq_of_strict perm (picked.strict arranged sorted) (picked'.strict arranged sorted')

theorem selection_relisted (arranged : Arranged r₀ config₀ structured₀ t split)
    (same : ∀ k, k ∈ listed ↔ k ∈ sim.transitions)
    (valid : ∀ k ∈ sim.transitions, k < available r sim.kind) :
    selection { r with simulations := sims } t { sim with transitions := listed } index =
      selection r t sim index := by
  obtain ⟨selected, hselected⟩ : ∃ selected, selection r t sim index = .ok selected :=
    selection_succeeds valid
  obtain ⟨relisted, hrelisted⟩ : ∃ relisted, selection { r with simulations := sims } t
      { sim with transitions := listed } index = .ok relisted :=
    selection_succeeds fun k hk => valid k ((same k).mp hk)
  obtain ⟨picked, sorted⟩ := selection_ok hselected
  obtain ⟨picked', sorted'⟩ := selection_ok hrelisted
  rw [hselected, hrelisted, picked'.unique arranged picked same sorted' sorted]

theorem build_relisted_same (arranged : Arranged r₀ config₀ structured₀ t split) [RandomSeeds]
    (hsim : r.simulations[index]? = some sim)
    (hsims : sims[index]? = some { sim with transitions := listed })
    (same : ∀ k, k ∈ listed ↔ k ∈ sim.transitions)
    (valid : ∀ k ∈ sim.transitions, k < available r sim.kind) :
    build { r with simulations := sims } config structured t index =
      build r config structured t index := by
  unfold build
  rw [checked_relisted hsim hsims]
  cases accepted : checked r index with
  | error e => rfl
  | ok s =>
    obtain rfl := Option.some.inj (hsim.symm.trans (checked_ok accepted).1)
    simp only [Except.map, bind, Except.bind, selection_relisted arranged same valid]
    rfl

/-- Over the transitions of a network the list of a simulation is a set: any order and any
repetitions of valid indices give the same model, issues and errors. Two builds may only draw
different seeds, where neither the simulation nor the settings give one. -/
theorem build_relisted (first second : RandomSeeds)
    (network : TransitionNetwork.build r₀ config₀ structured₀ = .ok t)
    (hsim : r.simulations[index]? = some sim)
    (hsims : sims[index]? = some { sim with transitions := listed })
    (same : ∀ k, k ∈ listed ↔ k ∈ sim.transitions)
    (valid : ∀ k ∈ sim.transitions, k < available r sim.kind) :
    (build (d := second) { r with simulations := sims } config structured t index =
      (build (d := first) r config structured t index).map fun b =>
        ({ b.1 with seed := (sim.seedWith (d := second) config).1 },
          (sim.seedWith (d := second) config).2)) ∧
    ((sim.seed = none → config.fallbackSeed = none →
        first.draw sim.index = second.draw sim.index) →
      build (d := second) { r with simulations := sims } config structured t index =
        build (d := first) r config structured t index) := by
  obtain ⟨split, arranged⟩ := arranged_of_build network
  have relisted : build (d := second) { r with simulations := sims } config structured t index =
      build (d := second) r config structured t index :=
    build_relisted_same arranged hsim hsims same valid
  rw [relisted]
  refine ⟨build_reseeded hsim first second, fun agree => ?_⟩
  have seeds : sim.seedWith (d := second) config = sim.seedWith (d := first) config := by
    unfold Simulation.seedWith
    split
    · rfl
    · next unset =>
      split
      · rfl
      · next missing => rw [agree unset missing]
  rw [build_reseeded hsim first second, seeds]
  exact (build_reseeded hsim first first).symm

end Networks

end SimulationModel

namespace ReferenceData

def crossing (listed : List Nat) : Simulation :=
  ⟨0, "crossing", .kinetic, listed, ⟨1.0, 0.0, 0.0⟩, 1.0e8, 1000.0, ⟨4, 4, 4⟩, some 2, 100, .active⟩

def crossroads : ReferenceData := { chain with
  kineticTransitions := [
    ⟨0, "along", 0, [⟨0.0, 0.0, 0.0⟩, ⟨1.0, 0.0, 0.0⟩], 1.0e13, .active⟩,
    ⟨1, "across", 0, [⟨0.0, 0.0, 0.0⟩, ⟨0.0, 1.0, 0.0⟩], 1.0e12, .active⟩]
  simulations := [crossing [0, 1]] }

end ReferenceData

open ReferenceData in
theorem crossroads_relisted : ∃ structured t s issues,
    @TransitionNetwork.build rightAngle crossroads plainConfig structured = .ok t ∧
    @SimulationModel.build rightAngle _ crossroads plainConfig structured t 0 = .ok (s, issues) ∧
    @SimulationModel.build rightAngle _ { crossroads with simulations := [crossing [1, 0, 1]] }
      plainConfig structured t 0 = .ok (s, issues) ∧
    s.transitions = [0, 1, 2, 3] := by
  have found : (do
      let structured ← @CrystalStructure.build rightAngle crossroads plainConfig
      let t ← @TransitionNetwork.build rightAngle crossroads plainConfig structured
      let sim ← SimulationModel.checked crossroads 0
      let selected ← sim.transitions.foldlM (SimulationModel.select crossroads t sim 0) []
      let built ← @SimulationModel.ofSelection rightAngle _ crossroads plainConfig structured t 0
        sim
        [0, 1, 2, 3]
      return (t, selected, built.1) : Except BuildError
        (TransitionNetwork × List Nat × SimulationModel)).toOption.any
      fun (t, selected, s) => decide (selected = [0, 2, 1, 3]) &&
        decide ([0, 1, 2, 3].Pairwise fun a b =>
          SimulationModel.idOf t a < SimulationModel.idOf t b) &&
        decide (s.transitions = [0, 1, 2, 3]) := by decide +kernel
  obtain ⟨⟨t, selected, s⟩, h, facts⟩ := ok_of_any found
  obtain ⟨structured, _, h⟩ := bind_ok_iff.mp h
  obtain ⟨_, network, h⟩ := bind_ok_iff.mp h
  obtain ⟨sim, hsim, h⟩ := bind_ok_iff.mp h
  obtain ⟨_, hselected, h⟩ := bind_ok_iff.mp h
  obtain ⟨built, made, h⟩ := bind_ok_iff.mp h
  cases pure_ok_iff.mp h
  simp only [Bool.and_eq_true, decide_eq_true_eq] at facts
  obtain ⟨⟨rfl, strict⟩, numbers⟩ := facts
  have sorted := SimulationModel.selection_of_perm hselected (by decide) strict
  have simulation : @SimulationModel.build rightAngle _ crossroads plainConfig structured t 0 =
      .ok built := by
    simp only [SimulationModel.build, hsim, sorted, bind, Except.bind]
    exact made
  have same (k : Nat) : k ∈ [1, 0, 1] ↔ k ∈ (crossing [0, 1]).transitions := by
    simp [crossing]
    omega
  have again := (@SimulationModel.build_relisted crossroads t (crossing [0, 1]) 0
    [crossing [1, 0, 1]] [1, 0, 1] rightAngle crossroads plainConfig plainConfig structured
    structured inferInstance inferInstance network rfl rfl same (by decide)).2 fun _ _ => rfl
  exact ⟨structured, t, built.1, built.2, network, simulation, again.trans simulation, numbers⟩

end CrystalModel
