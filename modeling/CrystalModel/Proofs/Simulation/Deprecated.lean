import CrystalModel.Proofs.Simulation.JumpTable
import CrystalModel.Proofs.Transition.Particles

/-! # Deprecated particles

Neither rules nor jump tables ask for the state of a particle: one that is deprecated takes part
like any other, as long as an active exchange pair names it and the set of a site lists it. -/
namespace CrystalModel

/-- The place of a deprecated particle other than the void one. -/
def ReferenceData.Deprecated (r : ReferenceData) (k : Nat) : Prop :=
  k ≠ voidIndex ∧ ∃ particle, r.particles[k]? = some particle ∧ particle.state = .deprecated

open TransitionNetwork

section Network

variable [Trigonometry] [d : RandomSeeds] {r : ReferenceData} {config : Config}
  {structured : CrystalStructure} {t : TransitionNetwork} {k : Nat}

/-- A particle that no rule holds and that has no jump on any position of any simulation. -/
structure LeftOut (r : ReferenceData) (config : Config) (structured : CrystalStructure)
    (t : TransitionNetwork) (k : Nat) : Prop where
  rules : ∀ x ∈ t.rules, ∀ b, x.rule.Holds b → b.toNat ≠ k
  jumps : ∀ index s issues,
    SimulationModel.build r config structured t index = .ok (s, issues) →
      ∀ p < structured.positionTotal, JumpIndex.cell? s.index.counts p k = some 0

theorem count_of_unheld (network : TransitionNetwork.build r config structured = .ok t)
    (bytes : ∀ x ∈ t.rules, ∀ b ∈ x.rule.start, b.toNat < particleLimit)
    (unheld : ∀ x ∈ t.rules, ∀ b ∈ x.rule.start, b.toNat ≠ k) {particle : Particle}
    (hk : r.particles[k]? = some particle) {index : Nat} {s : SimulationModel}
    {issues : List Issue} (h : SimulationModel.build r config structured t index = .ok (s, issues))
    {p : Nat} (hp : p < structured.positionTotal) :
    JumpIndex.cell? s.index.counts p k = some 0 := by
  obtain ⟨ids, _, row, _⟩ :=
    (SimulationModel.exactTable_of_build network bytes h).rows p hp k particle hk
  have empty : ids = [] := by
    refine List.eq_nil_iff_forall_not_mem.mpr fun d hd => ?_
    obtain ⟨_, _, _, _, _, _, _, _, x, hx, b, first, same⟩ := (row.mem d).mp hd
    exact unheld x (List.mem_of_getElem? hx) b (List.mem_of_head? first) same
  rw [row.count, empty]
  rfl

/-- A particle is left out, whatever its state, exactly when no rule that an active transition has
on its way holds it. -/
theorem leftOut_iff (network : TransitionNetwork.build r config structured = .ok t)
    (bytes : ∀ x ∈ t.rules, ∀ b ∈ x.rule.start, b.toNat < particleLimit) {particle : Particle}
    (hk : r.particles[k]? = some particle) : LeftOut r config structured t k ↔
      ∀ rule, Enumerates r config structured rule → ∀ b, rule.Holds b → b.toNat ≠ k := by
  rw [← forall_rules_iff network (p := fun rule => ∀ b, rule.Holds b → b.toNat ≠ k)
    (fun rule h b hb => h b (Rule.holds_swapped.mp hb))
    fun rule h b hb => h b (Rule.holds_inverted.mp hb)]
  refine ⟨LeftOut.rules, fun unheld => ⟨unheld, fun index s issues h p hp => ?_⟩⟩
  exact count_of_unheld network bytes (fun x hx b hb => unheld x hx b (Or.inl hb)) hk h hp

/-- Deprecated particles are left out exactly when no rule that an active transition has on its way
holds one. -/
theorem deprecated_leftOut_iff (network : TransitionNetwork.build r config structured = .ok t)
    (bytes : ∀ x ∈ t.rules, ∀ b ∈ x.rule.start, b.toNat < particleLimit) :
    (∀ k, r.Deprecated k → LeftOut r config structured t k) ↔
      ∀ rule, Enumerates r config structured rule → ∀ b, rule.Holds b →
        ¬r.Deprecated b.toNat := by
  have each (k : Nat) (deprecated : r.Deprecated k) : LeftOut r config structured t k ↔
      ∀ rule, Enumerates r config structured rule → ∀ b, rule.Holds b → b.toNat ≠ k := by
    obtain ⟨_, particle, hk, _⟩ := deprecated
    exact leftOut_iff network bytes hk
  constructor
  · intro left rule enumerated b held deprecated
    exact (each _ deprecated).mp (left _ deprecated) rule enumerated b held rfl
  · intro unheld k deprecated
    refine (each k deprecated).mpr fun rule enumerated b held same => ?_
    exact unheld rule enumerated b held (same ▸ deprecated)

end Network

def ReferenceData.retired : ReferenceData := { chain with
  particles := [.void, ⟨1, "A", "A", 1.0, false, .deprecated⟩,
    ⟨2, "Vc", "Vc", 0.0, true, .active⟩] }

open ReferenceData in
theorem retired_jumps : ∃ structured t s issues,
    @TransitionNetwork.build rightAngle retired plainConfig structured = .ok t ∧
    @SimulationModel.build rightAngle _ retired plainConfig structured t 0 = .ok (s, issues) ∧
    retired.Deprecated 1 ∧ t.rules.map (·.rule.start) =
      [[1, 2], [2, 1], [1, 2], [2, 1], [1, 2], [2, 1]] ∧
    s.index.counts = [[0, 1, 1]] ∧
    ¬ ∀ k, retired.Deprecated k → @LeftOut rightAngle _ retired plainConfig structured t k := by
  have found : (do
      let structured ← @CrystalStructure.build rightAngle retired plainConfig
      let t ← @TransitionNetwork.build rightAngle retired plainConfig structured
      let built ← @SimulationModel.build rightAngle _ retired plainConfig structured t 0
      return (t, built.1) : Except BuildError (TransitionNetwork × SimulationModel)).toOption.any
        fun x => decide (x.1.rules.map (·.rule.start) =
            [[1, 2], [2, 1], [1, 2], [2, 1], [1, 2], [2, 1]] ∧
          x.2.index.counts = [[0, 1, 1]]) := by decide +kernel
  obtain ⟨⟨t, s⟩, h, facts⟩ := ok_of_any found
  obtain ⟨structured, _, h⟩ := bind_ok_iff.mp h
  obtain ⟨_, network, h⟩ := bind_ok_iff.mp h
  obtain ⟨built, simulation, h⟩ := bind_ok_iff.mp h
  cases pure_ok_iff.mp h
  obtain ⟨starts, counts⟩ := of_decide_eq_true facts
  have bytes : ∀ x ∈ t.rules, ∀ b ∈ x.rule.start, b.toNat < particleLimit := by
    have among : ∀ start ∈ t.rules.map (·.rule.start), ∀ b ∈ start, b.toNat < particleLimit := by
      rw [starts]
      decide +kernel
    exact fun x hx => among _ (List.mem_map_of_mem hx)
  have deprecated : retired.Deprecated 1 := ⟨by decide, _, rfl, rfl⟩
  refine ⟨structured, t, built.1, built.2, network, simulation, deprecated, starts, counts,
    fun left => ?_⟩
  have rules := (@deprecated_leftOut_iff rightAngle _ _ _ _ _ network bytes).mp left
  have enumerated : Enumerates retired plainConfig structured
      ⟨[1, 2], [0, 0], [2, 1], [0, 1], ⟨17⟩⟩ := by
    refine ⟨⟨0, "hop", [0, 0], [.dynamic], .active⟩, [0, 0], true,
      [⟨[⟨1, 2⟩], false⟩, ⟨[⟨1, 2⟩], false⟩],
      .metropolis ⟨0, "within", 0, 0, 0, .active⟩ ?_ rfl rfl, rfl, ?_⟩
    · decide +kernel
    · decide +kernel
  exact rules _ enumerated 1 (Or.inl (by decide)) deprecated

end CrystalModel
