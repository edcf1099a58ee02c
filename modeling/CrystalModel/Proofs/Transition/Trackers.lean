import CrystalModel.Proofs.Rule.Trackers
import CrystalModel.Proofs.Transition.Rules

/-! # Trackers of a network

The rules of one model make the same exchanges, so a rule and its inverse restore the trackers of
their path exactly when no two exchanges of the rule meet. -/
namespace CrystalModel

namespace TransitionNetwork

theorem exists_route_exchangeRules (r : ReferenceData) (a : AbstractTransition)
    (states : List PositionOffer) (metropolis : Bool) : ∃ n exchanges, Route n exchanges ∧
      ∀ rule ∈ exchangeRules r a states metropolis, RunsAlong n exchanges rule := by
  obtain ⟨n, exchanges, route, runs⟩ := exists_route r.particles states a.connectors metropolis
  refine ⟨n, exchanges, route, fun rule h => ?_⟩
  obtain ⟨own, among, rfl | rfl⟩ := mem_bothWays.mp h
  · exact runs rule among
  · exact (runs own among).swapped

section Draft

variable [Trigonometry] {r : ReferenceData} {config : Config} {s : CrystalStructure}
  {d : DraftTransition}

theorem Authored.exists_route (h : Authored r config s d) : ∃ n exchanges, Route n exchanges ∧
    ∀ rule ∈ d.rules, RunsAlong n exchanges rule := by
  cases h with
  | kinetic k _ _ made =>
    obtain ⟨a, states, _, drafted⟩ := KineticTransition.drafted_of_ok made
    rw [drafted.rules]
    exact exists_route_exchangeRules r a states false
  | metropolis k _ _ made =>
    obtain ⟨a, states, drafted⟩ := MetropolisTransition.drafted_of_ok made
    rw [drafted.rules]
    exact exists_route_exchangeRules r a states true

theorem DraftOf.exists_route {m : LinkedTransition} (h : DraftOf r config s m d) :
    ∃ n exchanges, Route n exchanges ∧ ∀ rule ∈ d.rules, RunsAlong n exchanges rule := by
  rcases h with ⟨_, authored⟩ | ⟨_, d₀, authored, turned⟩
  · exact authored.exists_route
  · obtain ⟨n, exchanges, route, runs⟩ := authored.exists_route
    refine ⟨n, turnedExchanges n exchanges, route.turned, fun rule h => ?_⟩
    rw [DraftTransition.reversed_rules turned] at h
    obtain ⟨own, among, rfl⟩ := List.mem_map.mp h
    exact (runs own among).inverted

end Draft

section Network

variable [Trigonometry] {r : ReferenceData} {config : Config} {s : CrystalStructure}
  {t : TransitionNetwork}

theorem exists_route_of_build (h : build r config s = .ok t) {id : Nat} {x : LinkedRule}
    (hx : t.rules[id]? = some x) : ∃ j y n exchanges, Undone t x.transition id x j y ∧
      Route n exchanges ∧ RunsAlong n exchanges x.rule ∧ RunsAlong n exchanges y.rule := by
  obtain ⟨_, base, _, plans, k, plan, i, laid, hk, hi, rfl⟩ := laid_rule h hx
  obtain ⟨_, origin, _⟩ := laid.drafted hk
  obtain ⟨_, hrule, _, owner, _⟩ := rulesOf_some hi
  have inside := (List.getElem?_eq_some_iff.mp hrule).1
  obtain ⟨x', j, y, hx', owner', among, undone⟩ :=
    laid.stored.undone laid.numbering hk origin.paired inside
  rw [hx, Option.some.injEq] at hx'
  subst hx'
  obtain ⟨n, exchanges, route, runs⟩ := origin.exists_route
  obtain ⟨back, hback, _, same⟩ :=
    rulesOf_getElem? r.particles base plans (List.getElem?_eq_getElem among)
  have found := laid.stored.rules k plan hk j back hback
  rw [undone.found, Option.some.injEq] at found
  subst found
  refine ⟨_, y, n, exchanges, owner' ▸ undone, route, runs _ (List.mem_of_getElem? hrule), ?_⟩
  rw [same]
  exact runs _ (List.getElem_mem among)

/-- The order of every rule lists each position of its path once. It and the order of the inverse
rule put all trackers back exactly when no position takes part in two exchanges of the rule: the
inverse repeats the exchanges in their order, and those of a chain have to be made backwards. -/
theorem trackers_restored_iff (h : build r config s = .ok t) (id : Nat) (x : LinkedRule)
    (hx : t.rules[id]? = some x) : ∃ j y, x.inverse = some j ∧ t.rules[j]? = some y ∧
      y.rule.length = x.rule.length ∧
      ((x.rule.trackerBytes.take x.rule.length).map (·.toNat)).Perm (List.range x.rule.length) ∧
      ((y.rule.trackerBytes.take y.rule.length).map (·.toNat)).Perm (List.range y.rule.length) ∧
      (x.rule.RestoredBy y.rule ↔ x.rule.Separate) := by
  obtain ⟨j, y, n, exchanges, undone, route, there, back⟩ := exists_route_of_build h hx
  have length : x.rule.length = n := there.start
  have length' : y.rule.length = n := back.start
  refine ⟨j, y, undone.link, undone.found, length'.trans length.symm, ?_, ?_,
    there.restoredBy_iff back route⟩
  · rw [length]
    exact there.trackerBytes_perm route
  · rw [length']
    exact back.trackerBytes_perm route

end Network

end TransitionNetwork

/-- Two charges of one species. The first transition exchanges neighbours, the second one passes a
charge on along three positions. -/
def ReferenceData.relay : ReferenceData := { chain with
  particles := [.void, ⟨1, "A", "A", 1.0, false, .active⟩, ⟨2, "B", "A", 2.0, false, .active⟩]
  abstractTransitions := [⟨0, "exchange", [0, 0], [.dynamic], .active⟩,
    ⟨1, "relay", [0, 0, 0], [.dynamic, .dynamic], .active⟩]
  kineticTransitions := [⟨0, "near", 0, [⟨0.0, 0.0, 0.0⟩, ⟨1.0, 0.0, 0.0⟩], 1.0e13, .active⟩,
    ⟨1, "far", 1, [⟨0.0, 0.0, 0.0⟩, ⟨1.0, 0.0, 0.0⟩, ⟨2.0, 0.0, 0.0⟩], 1.0e13, .active⟩]
  metropolisTransitions := []
  simulations := [] }

namespace TransitionNetwork

open ReferenceData in
theorem relay_trackers : ∃ s t, @build rightAngle relay plainConfig s = .ok t ∧
    (∃ x y, t.rules[0]? = some x ∧ x.inverse = some 1 ∧ t.rules[1]? = some y ∧
      x.rule.RestoredBy y.rule) ∧
    ∃ x y, t.rules[2]? = some x ∧ x.inverse = some 3 ∧ t.rules[3]? = some y ∧
      x.rule.start = [2, 1, 1] ∧ x.rule.final = [1, 1, 2] ∧
      x.rule.trackerBytes = [1, 2, 0, 0, 0, 0, 0, 0] ∧ y.rule.trackerBytes = x.rule.trackerBytes ∧
      ¬ x.rule.RestoredBy y.rule := by
  have found : (do
      let s ← @CrystalStructure.build rightAngle relay plainConfig
      @build rightAngle relay plainConfig s : Except BuildError TransitionNetwork).toOption.any
      fun t =>
        t.rules[0]?.any (fun x => x.inverse = some 1 ∧ x.rule.Separate) ∧
        t.rules[2]?.any (fun x => x.inverse = some 3 ∧ x.rule.start = [2, 1, 1] ∧
          x.rule.final = [1, 1, 2] ∧ x.rule.trackerBytes = [1, 2, 0, 0, 0, 0, 0, 0] ∧
          ¬ x.rule.Separate) ∧
        t.rules[3]?.any (fun y => y.rule.trackerBytes = [1, 2, 0, 0, 0, 0, 0, 0]) := by
    decide +kernel
  obtain ⟨t, h, rules⟩ := ok_of_any found
  obtain ⟨s, _, network⟩ := bind_ok_iff.mp h
  obtain ⟨near, far, back⟩ := of_decide_eq_true rules
  refine ⟨s, t, network, ?_, ?_⟩
  · obtain ⟨x, hx, near⟩ := (Option.any_eq_true _ _).mp near
    obtain ⟨link, separate⟩ := of_decide_eq_true near
    obtain ⟨j, y, inverse, hy, _, _, _, restored⟩ :=
      @trackers_restored_iff rightAngle _ _ _ _ network 0 x hx
    obtain rfl : j = 1 := Option.some.inj (inverse.symm.trans link)
    exact ⟨x, y, hx, link, hy, restored.mpr separate⟩
  · obtain ⟨x, hx, far⟩ := (Option.any_eq_true _ _).mp far
    obtain ⟨link, start, final, order, meet⟩ := of_decide_eq_true far
    obtain ⟨y', hy', same⟩ := (Option.any_eq_true _ _).mp back
    obtain ⟨j, y, inverse, hy, _, _, _, restored⟩ :=
      @trackers_restored_iff rightAngle _ _ _ _ network 2 x hx
    obtain rfl : j = 3 := Option.some.inj (inverse.symm.trans link)
    obtain rfl : y = y' := Option.some.inj (hy.symm.trans hy')
    exact ⟨x, y, hx, link, hy, start, final, order, (of_decide_eq_true same).trans order.symm,
      fun back => meet (restored.mp back)⟩

end TransitionNetwork

end CrystalModel
