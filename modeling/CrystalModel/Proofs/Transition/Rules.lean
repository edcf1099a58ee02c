import CrystalModel.Proofs.Reference.Validation
import CrystalModel.Proofs.Rule.Pairing
import CrystalModel.Proofs.Transition.Build

/-! # Inverse rules

The rules of every model, authored or appended, come in pairs. Numbering moves both partners of a
pair by the same amount, so they stay linked to each other. -/
namespace CrystalModel

namespace TransitionNetwork

section Draft

variable [Trigonometry] {r : ReferenceData} {config : Config} {s : CrystalStructure}
  {d : DraftTransition}

theorem Authored.paired (h : Authored r config s d) : Paired d.rules := by
  cases h with
  | kinetic k _ _ made =>
    obtain ⟨a, states, _, drafted⟩ := KineticTransition.drafted_of_ok made
    rw [drafted.rules]
    exact paired_exchangeRules r a states false
  | metropolis k _ _ made =>
    obtain ⟨a, states, drafted⟩ := MetropolisTransition.drafted_of_ok made
    rw [drafted.rules]
    exact paired_exchangeRules r a states true

theorem DraftOf.paired {m : LinkedTransition} (h : DraftOf r config s m d) : Paired d.rules := by
  rcases h with ⟨_, authored⟩ | ⟨_, d₀, authored, turned⟩
  · exact authored.paired
  · rw [DraftTransition.reversed_rules turned]
    exact authored.paired.inverted

end Draft

section Numbers

variable {particles : List Particle} {plans : List TransitionPlan} {base : Base}
  {plan : TransitionPlan} {j : Nat}

theorem rulesOf_some {x : LinkedRule} (hx : (rulesOf particles base plans plan)[j]? = some x) :
    ∃ link, plan.draft.rules[j]? = some x.rule ∧ (ruleLinks plan.draft.rules)[j]? = some link ∧
      x.transition = base.transitions + plan.modelId ∧
      x.inverse = link.map (base.rules + rulesBefore plans plan.modelId + ·) := by
  rw [rulesOf, List.getElem?_map] at hx
  obtain ⟨⟨rule, link⟩, both, rfl⟩ := Option.map_eq_some_iff.mp hx
  obtain ⟨hrule, hlink⟩ := List.getElem?_zip_eq_some.mp both
  exact ⟨link, hrule, hlink, rfl, rfl⟩

/-- Rule `id` of model `n` beside rule `j`, which undoes it. -/
structure Undone (t : TransitionNetwork) (n id : Nat) (x : LinkedRule) (j : Nat)
    (y : LinkedRule) : Prop where
  link : x.inverse = some j
  found : t.rules[j]? = some y
  back : y.inverse = some id
  owner : y.transition = n
  states : y.rule.Undoes x.rule
  startCode : y.startCode = x.finalCode
  finalCode : y.finalCode = x.startCode
  transitionCode : y.transitionCode = x.transitionCode
  itself : j = id ↔ x.rule.start = x.rule.final

/-- Every rule is listed by the model that owns it, beside the rule that undoes it. -/
structure RulesLinked (t : TransitionNetwork) : Prop where
  owned : ∀ (id : Nat) (x : LinkedRule), t.rules[id]? = some x →
    ∃ m, t.transitions[x.transition]? = some m ∧ id ∈ m.rules
  undone : ∀ (n : Nat) (m : LinkedTransition), t.transitions[n]? = some m → ∀ id ∈ m.rules,
    ∃ x j y, t.rules[id]? = some x ∧ x.transition = n ∧ j ∈ m.rules ∧ Undone t n id x j y

theorem model_rules : (model base plans plan).rules =
    List.range' (base.rules + rulesBefore plans plan.modelId) plan.draft.rules.length :=
  rfl

theorem mem_model_rules (base : Base) (plans : List TransitionPlan)
    (inside : j < plan.draft.rules.length) :
    base.rules + rulesBefore plans plan.modelId + j ∈ (model base plans plan).rules := by
  rw [model_rules, List.mem_range'_1]
  omega

theorem Stored.undone {t : TransitionNetwork} {k : Nat} (stored : Stored particles t base plans)
    (numbered : Numbered plans) (hk : plans[k]? = some plan) (paired : Paired plan.draft.rules)
    (inside : j < plan.draft.rules.length) :
    ∃ x i y, t.rules[base.rules + rulesBefore plans k + j]? = some x ∧
      x.transition = base.transitions + k ∧ i < plan.draft.rules.length ∧
      Undone t (base.transitions + k) (base.rules + rulesBefore plans k + j) x
        (base.rules + rulesBefore plans k + i) y := by
  have place := numbered.place k plan hk
  have entry : ∀ {i : Nat} {rule : Rule}, plan.draft.rules[i]? = some rule →
      ∃ x, (rulesOf particles base plans plan)[i]? = some x ∧ x.rule = rule ∧
        x.transition = base.transitions + k ∧
        ∃ link, (ruleLinks plan.draft.rules)[i]? = some link ∧
          x.inverse = link.map (base.rules + rulesBefore plans k + ·) := by
    intro i rule hi
    obtain ⟨x, hx, _, same⟩ := rulesOf_getElem? particles base plans hi
    obtain ⟨link, _, hlink, owner, inverse⟩ := rulesOf_some hx
    rw [place] at owner inverse
    exact ⟨x, hx, same, owner, link, hlink, inverse⟩
  obtain ⟨i, back, partners⟩ :=
    (linked_of_paired paired).partners (List.getElem?_eq_getElem inside)
  obtain ⟨x, hx, rule, owner, link, hlink, inverse⟩ := entry (List.getElem?_eq_getElem inside)
  obtain ⟨y, hy, rule', owner', link', hlink', inverse'⟩ := entry partners.found
  rw [partners.there, Option.some.injEq] at hlink
  rw [partners.home, Option.some.injEq] at hlink'
  subst hlink hlink'
  rw [Option.map_some, Nat.zero_add] at inverse inverse'
  have undoes : y.rule.Undoes x.rule := by
    rw [rule, rule']
    exact partners.undoes
  refine ⟨x, i, y, stored.rules k plan hk j x hx, owner,
    (List.getElem?_eq_some_iff.mp partners.found).1, ?_⟩
  refine ⟨inverse, stored.rules k plan hk i y hy, inverse', owner', undoes, ?_, ?_, ?_, ?_⟩
  · exact congrArg stateCode undoes.1
  · exact congrArg stateCode undoes.2
  · rw [LinkedRule.transitionCode, LinkedRule.transitionCode, rule, rule', partners.transition]
  · rw [rule, ← partners.itself]
    omega

end Numbers

section Network

variable [Trigonometry] {r : ReferenceData} {config : Config} {s : CrystalStructure}
  {t : TransitionNetwork}

/-- Every rule of every model is undone by exactly the rule that it is linked to. -/
theorem rulesLinked_of_build (h : build r config s = .ok t) : RulesLinked t := by
  constructor
  · intro id x hx
    obtain ⟨_, base, _, plans, k, plan, j, laid, hk, hj, rfl⟩ := laid_rule h hx
    have place := laid.numbering.place k plan hk
    obtain ⟨_, hrule, _, owner, _⟩ := rulesOf_some hj
    rw [place] at owner
    refine ⟨_, owner ▸ laid.stored.transitions k plan hk, ?_⟩
    have among := mem_model_rules base plans
      (List.getElem?_eq_some_iff.mp hrule).1
    rw [place] at among
    exact among
  · intro n m hm id hid
    obtain ⟨_, base, _, plans, k, plan, laid, hk, rfl, rfl⟩ := laid_transition h hm
    have place := laid.numbering.place k plan hk
    obtain ⟨_, origin, _⟩ := laid.drafted hk
    have number := hid
    rw [model_rules, place, List.mem_range'_1] at number
    have inside : id - (base.rules + rulesBefore plans k) < plan.draft.rules.length := by
      omega
    obtain ⟨x, i, y, hx, owner, hi, undone⟩ :=
      laid.stored.undone laid.numbering hk origin.paired inside
    rw [Nat.add_sub_cancel' number.1] at hx undone
    have among := mem_model_rules base plans hi
    rw [place] at among
    exact ⟨x, _, y, hx, owner, among, undone⟩

end Network

open ReferenceData in
theorem chain_rulesLinked : ∃ s t, @build rightAngle chain plainConfig s = .ok t ∧
    t.rules.map (fun x => (x.transition, x.inverse)) =
      [(0, some 1), (0, some 0), (1, some 3), (1, some 2), (2, some 5), (2, some 4)] ∧
    RulesLinked t := by
  have found : (do
      let s ← @CrystalStructure.build rightAngle chain plainConfig
      @build rightAngle chain plainConfig s : Except BuildError TransitionNetwork).toOption.any
      fun t =>
        decide (t.rules.map (fun x => (x.transition, x.inverse)) =
          [(0, some 1), (0, some 0), (1, some 3), (1, some 2), (2, some 5), (2, some 4)]) := by
    decide +kernel
  obtain ⟨t, h, rules⟩ := ok_of_any found
  obtain ⟨s, _, network⟩ := bind_ok_iff.mp h
  exact ⟨s, t, network, of_decide_eq_true rules, @rulesLinked_of_build rightAngle _ _ _ _ network⟩

end TransitionNetwork

end CrystalModel
