import CrystalModel.Proofs.Simulation.JumpTable
import CrystalModel.Proofs.Simulation.Undo
import CrystalModel.Proofs.Transition.Repetition

/-! # Jumps listed twice

A model that runs on one path twice gives two directions of one collection, which stand in the same
rows of the jump table. -/
namespace CrystalModel

def TransitionNetwork.Starts (t : TransitionNetwork) (m : LinkedTransition) (k : Nat) : Prop :=
  k ≠ voidIndex ∧ ∃ id ∈ m.rules, ∃ x, t.rules[id]? = some x ∧
    ∃ b, x.rule.start.head? = some b ∧ b.toNat = k

namespace SimulationModel

/-- On position `p`, particle `k` can start two directions with one path and the same rules. -/
def ListsTwice (s : SimulationModel) (t : TransitionNetwork) (p k : Nat) : Prop :=
  ∃ (d d' : Nat) (direction direction' : JumpDirection) (y y' : Mapping), d ≠ d' ∧
    s.Opens t p k d ∧ s.Opens t p k d' ∧
    s.directions[d]? = some direction ∧ s.directions[d']? = some direction' ∧
    direction.collection = direction'.collection ∧
    t.mappings[direction.mapping]? = some y ∧ t.mappings[direction'.mapping]? = some y' ∧
    y.path = y'.path

variable {t : TransitionNetwork} {structured : CrystalStructure} {s : SimulationModel}
  {p k d n : Nat} {direction : JumpDirection} {m : LinkedTransition} {y : Mapping}

theorem Directed.opens_iff (directed : Directed structured t s d direction n m y)
    (hd : s.directions[d]? = some direction) :
    s.Opens t p k d ↔ y.start = p ∧ t.Starts m k := by
  constructor
  · rintro ⟨particle, x, c, hx, hp, hc, rules⟩
    rw [hd, Option.some.injEq] at hx
    subst hx
    rw [directed.collection, Option.some.injEq] at hc
    subst hc
    exact ⟨directed.position ▸ hp, particle, rules⟩
  · rintro ⟨hp, particle, rules⟩
    exact ⟨particle, direction, _, hd, directed.position.trans hp, directed.collection, rules⟩

variable [Trigonometry] [RandomSeeds] {r r' : ReferenceData} {config config' : Config}
  {structured' : CrystalStructure} {index : Nat} {issues : List Issue}

theorem repeats_of_listsTwice (network : TransitionNetwork.build r config structured = .ok t)
    (h : build r' config' structured' t index = .ok (s, issues)) (twice : s.ListsTwice t p k) :
    ∃ n ∈ s.transitions, ∃ m, t.transitions[n]? = some m ∧ t.Repeats m ∧ t.Starts m k := by
  obtain ⟨d, d', direction, direction', y, y', apart, opens, _, hd, hd', collection, hy, hy',
    same⟩ := twice
  obtain ⟨n, m, z, directed⟩ := directed_of_build h hd
  obtain ⟨n', m', _, directed'⟩ := directed_of_build h hd'
  have selected := directed'.selected
  rw [← collection, directed.selected, Option.some.injEq] at selected
  subst selected
  have model := directed'.model
  rw [directed.model, Option.some.injEq] at model
  subst model
  have distinct : direction.mapping ≠ direction'.mapping := by
    intro number
    have mapped : (s.directions.map (·.mapping))[d]? = (s.directions.map (·.mapping))[d']? := by
      rw [List.getElem?_map, List.getElem?_map, hd, hd', Option.map_some, Option.map_some, number]
    have inside : d < (s.directions.map (·.mapping)).length := by
      rw [List.length_map]
      exact (List.getElem?_eq_some_iff.mp hd).1
    exact apart ((List.getElem?_inj inside (directions_distinct network h)).mp mapped)
  exact ⟨n, List.mem_of_getElem? directed.selected, m, directed.model,
    ⟨_, directed.listed, _, directed'.listed, distinct, y, y', hy, hy', same⟩,
    ((directed.opens_iff hd).mp opens).2⟩

theorem listsTwice_of_repeats (h : build r' config' structured' t index = .ok (s, issues))
    (hn : n ∈ s.transitions) (hm : t.transitions[n]? = some m) (repeated : t.Repeats m)
    (starts : t.Starts m k) : ∃ p, s.ListsTwice t p k := by
  obtain ⟨id, hid, id', hid', apart, y, y', hy, hy', same⟩ := repeated
  obtain ⟨c, hc⟩ := List.mem_iff_getElem?.mp hn
  have opened : ∀ {id : Nat} {y : Mapping}, id ∈ m.mappings → t.mappings[id]? = some y →
      ∃ (d : Nat) (direction : JumpDirection), s.directions[d]? = some direction ∧
        direction.collection = c ∧ direction.mapping = id ∧ s.Opens t y.start k d := by
    intro id y hid hy
    obtain ⟨d, direction, hd, collection, mapping⟩ := exists_direction h hc hm hid hy
    obtain ⟨n', m', z, directed⟩ := directed_of_build h hd
    have selected := directed.selected
    rw [collection, hc, Option.some.injEq] at selected
    have model := directed.model
    rw [← selected, hm, Option.some.injEq] at model
    have found := directed.mapping
    rw [mapping, hy, Option.some.injEq] at found
    refine ⟨d, direction, hd, collection, mapping, (directed.opens_iff hd).mpr ⟨?_, ?_⟩⟩
    · rw [found]
    · exact model ▸ starts
  obtain ⟨d, direction, hd, collection, mapping, opens⟩ := opened hid hy
  obtain ⟨d', direction', hd', collection', mapping', opens'⟩ := opened hid' hy'
  have start : y'.start = y.start := by
    rw [Mapping.start, Mapping.start, same]
  refine ⟨y.start, d, d', direction, direction', y, y', ?_, opens, start ▸ opens', hd, hd',
    collection.trans collection'.symm, mapping ▸ hy, mapping' ▸ hy', same⟩
  intro number
  rw [number, hd', Option.some.injEq] at hd
  exact apart (mapping.symm.trans (hd ▸ mapping'))

end SimulationModel

section Built

variable [Trigonometry] [RandomSeeds] {r : ReferenceData} {config : Config}
  {structured : CrystalStructure} {t : TransitionNetwork}

/-- A kinetic model runs on one path twice exactly when two images of its authored path merge. A
Metropolis model does so only among more positions than there are numbers of 32 bits. A row lists a
jump twice exactly when the simulation selects a model that repeats a path. -/
theorem repeated_jumps_iff (structural : CrystalStructure.build r config = .ok structured)
    (network : TransitionNetwork.build r config structured = .ok t) :
    (∀ (n : Nat) (m : LinkedTransition), t.transitions[n]? = some m →
      (m.kind = .kinetic → (t.Repeats m ↔ ∃ k, r.kineticTransitions[m.reference]? = some k ∧
        structured.Merges k m.isInverse)) ∧
      (m.kind = .metropolis → t.Repeats m → 2 ^ 32 < structured.positionSites.length)) ∧
    ∀ (r' : ReferenceData) (config' : Config) (structured' : CrystalStructure) (index : Nat)
      (s : SimulationModel) (issues : List Issue),
      SimulationModel.build r' config' structured' t index = .ok (s, issues) → ∀ k,
        ((∃ p, s.ListsTwice t p k) ↔
          ∃ n ∈ s.transitions, ∃ m, t.transitions[n]? = some m ∧ t.Repeats m ∧ t.Starts m k) := by
  obtain ⟨split, arranged⟩ := TransitionNetwork.arranged_of_build network
  have sound := CrystalStructure.sound_of_build structural
  constructor
  · intro n m hm
    constructor
    · intro kind
      exact arranged.kinetic_repeats_iff sound hm kind
    · intro kind repeated
      exact arranged.exchange_repeats sound hm kind repeated
  · intro r' config' structured' index s issues built k
    constructor
    · rintro ⟨p, twice⟩
      exact SimulationModel.repeats_of_listsTwice network built twice
    · rintro ⟨n, hn, m, hm, repeated, starts⟩
      exact SimulationModel.listsTwice_of_repeats built hn hm repeated starts

end Built

namespace ReferenceData

def hop : AbstractTransition := ⟨0, "hop", [0, 0], [.dynamic], .active⟩

/-- A jump along the chain that starts a little beside its position. -/
def grazing : KineticTransition :=
  ⟨0, "along", 0, [⟨0.0, 9.0e-7, 0.0⟩, ⟨1.0, 0.0, 0.0⟩], 1.0e13, .active⟩

/-- The chain with a mirror plane, which carries the start of the jump to its other side. -/
def mirrored : ReferenceData := { chain with
  spaceGroup := ⟨3, "P2", ["x,y,z", "x,-y,z"]⟩
  abstractTransitions := [hop]
  kineticTransitions := [grazing]
  metropolisTransitions := [] }

end ReferenceData

open ReferenceData in
theorem mirrored_repeats : ∃ s t m,
    @CrystalStructure.build rightAngle mirrored plainConfig = .ok s ∧
    @TransitionNetwork.build rightAngle mirrored plainConfig s = .ok t ∧
    t.transitions[0]? = some m ∧ m.isInverse = false ∧ t.Repeats m := by
  have found : (do
      let s ← @CrystalStructure.build rightAngle mirrored plainConfig
      let path ← grazing.encodedPath plainConfig s hop
      let states ← (mirrored.offersAlong hop
        (path.map fun v => (CrystalStructure.siteAt s.positionSites v).getD 0)).mapError
        grazing.invalid
      let unstable := states.map (·.unstable)
      let images ← (s.symmetry.pathImages grazing.geometry).mapM
        (@KineticTransition.mapping rightAngle grazing s.encoder
          (pathOffsets .kinetic hop.connectors unstable))
      let plans ← @TransitionPlan.ofDrafts rightAngle s.encoder
        [⟨.kinetic, grazing.index, hop.index,
        grazing.attemptFrequency, hop.connectors, unstable, images,
        exchangeRules mirrored hop states false⟩]
      return (s, states, images, (TransitionNetwork.empty.append mirrored.particles plans).append
        mirrored.particles []) : Except BuildError (CrystalStructure × List PositionOffer ×
        List PathDraft × TransitionNetwork)).toOption.any
      fun (s, states, images, t) =>
        decide (exchangeRules mirrored hop states false ≠ [] ∧
          images.Pairwise fun a b => (compare a.path b.path).isLE = true) &&
        decide (t.transitions.map (fun m => (m.kind, m.reference, m.isInverse)) =
          [(.kinetic, 0, false), (.kinetic, 0, true)]) &&
        decide (s.symmetry.pathImages grazing.geometry =
            [grazing.geometry, [⟨0.0, -9.0e-7, 0.0⟩, ⟨1.0, 0.0, 0.0⟩]] ∧
          s.symmetry.tolerance.closeSequences grazing.geometry
            [⟨0.0, -9.0e-7, 0.0⟩, ⟨1.0, 0.0, 0.0⟩] = false ∧
          routeOf s.encoder false grazing.geometry =
            routeOf s.encoder false [⟨0.0, -9.0e-7, 0.0⟩, ⟨1.0, 0.0, 0.0⟩]) := by
    decide +kernel
  obtain ⟨⟨s, states, images, t⟩, h, facts⟩ := ok_of_any found
  obtain ⟨_, structural, h⟩ := bind_ok_iff.mp h
  obtain ⟨path, encoded, h⟩ := bind_ok_iff.mp h
  obtain ⟨_, offered, h⟩ := bind_ok_iff.mp h
  obtain ⟨_, made, h⟩ := bind_ok_iff.mp h
  obtain ⟨plans, planned, h⟩ := bind_ok_iff.mp h
  cases pure_ok_iff.mp h
  simp only [Bool.and_eq_true, decide_eq_true_eq] at facts
  obtain ⟨⟨⟨rules, ascending⟩, numbers⟩, twoImages, apart, same⟩ := facts
  have draft := @KineticTransition.draft_of_ascending grazing mirrored plainConfig s rightAngle hop
    path states images rfl encoded (mapError_ok_iff.mp offered) rules made ascending
  have places : mirrored.checkPlaces = .ok () := by decide +kernel
  have kinetic : (mirrored.kineticTransitions.filter (·.isActive)).mapM
      (@KineticTransition.draft rightAngle · mirrored plainConfig s) = .ok [_] :=
    mapM_ok_iff.mpr (.cons draft .nil)
  have network : @TransitionNetwork.build rightAngle mirrored plainConfig s =
      .ok ((TransitionNetwork.empty.append mirrored.particles plans).append
        mirrored.particles []) := by
    simp only [TransitionNetwork.build, places, kinetic, planned, bind, Except.bind]
    rfl
  have first : ((((TransitionNetwork.empty.append mirrored.particles plans).append
      mirrored.particles []).transitions.map fun m => (m.kind, m.reference, m.isInverse))[0]?) =
      some (.kinetic, 0, false) := by
    rw [numbers]
    rfl
  rw [List.getElem?_map] at first
  obtain ⟨m, hm, parts⟩ := Option.map_eq_some_iff.mp first
  simp only [Prod.mk.injEq] at parts
  obtain ⟨kind, reference, forward⟩ := parts
  obtain ⟨models, _⟩ := @repeated_jumps_iff rightAngle inferInstance _ _ _ _ structural network
  refine ⟨s, _, m, structural, network, hm, forward, ?_⟩
  refine ((models 0 m hm).1 kind).mpr ⟨grazing, ?_, ?_⟩
  · rw [reference]
    rfl
  · rw [forward]
    exact ⟨_, _, twoImages ▸ List.Sublist.refl _, apart, same⟩

end CrystalModel
