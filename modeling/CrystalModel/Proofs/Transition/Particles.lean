import CrystalModel.Proofs.Rule.Enumeration
import CrystalModel.Proofs.Transition.Buildable
import CrystalModel.Proofs.Transition.Rules

/-! # Particles of rules

The rules of a network are those that the paths of its active transitions have, read in all
directions. What they hold comes from the exchange pairs on offer there, and so from the particle
sets of the sites. -/
namespace CrystalModel

/-- The particle is there before, during or after the rule. -/
def Rule.Holds (rule : Rule) (b : UInt8) : Prop :=
  b ∈ rule.start ∨ b ∈ rule.transition ∨ b ∈ rule.final

@[simp] theorem Rule.holds_swapped {rule : Rule} {b : UInt8} :
    rule.swapped.Holds b ↔ rule.Holds b := by
  unfold Holds swapped
  tauto

@[simp] theorem Rule.holds_inverted {rule : Rule} {b : UInt8} :
    rule.inverted.Holds b ↔ rule.Holds b := by
  simp only [Holds, inverted, List.mem_reverse]
  tauto

/-- The particle is one that the positions put on offer. -/
def Offered (positions : List PositionOffer) (b : UInt8) : Prop :=
  ∃ position ∈ positions, ∃ pair ∈ position.pairs, b = pair.donor ∨ b = pair.acceptor

section Enumerated

variable {particles : List Particle} {positions : List PositionOffer}
  {connectors : List Connector} {metropolis : Bool} {rule : Rule} {b : UInt8}

theorem Generate.Drawn.offered {state : PathState} {pairs : List StatePair}
    (drawn : Drawn state pairs) (chosen : List.Forall₂ (fun pair (position : PositionOffer) =>
      pair ∈ position.pairs) pairs positions) (h : b ∈ state) : Offered positions b := by
  obtain ⟨pair, hpair, one⟩ := aligned_mem_left drawn h
  obtain ⟨position, hposition, among⟩ := aligned_mem_left chosen hpair
  exact ⟨position, hposition, pair, among, one⟩

theorem offered_of_holds (hr : rule ∈ pathRules particles positions connectors metropolis)
    (h : rule.Holds b) : b = voidByte ∨ Offered positions b := by
  obtain ⟨_, pairs, made⟩ := made_of_mem_pathRules hr
  rcases h with before | during | after
  · exact Or.inr (made.started.offered made.offered before)
  · rw [made.transition, Generate.inFlight, List.mem_map] at during
    obtain ⟨⟨position, pair⟩, both, rfl⟩ := during
    simp only
    split
    · obtain ⟨i, hi⟩ := List.mem_iff_getElem?.mp both
      obtain ⟨hposition, hpair⟩ := List.getElem?_zip_eq_some.mp hi
      obtain ⟨other, hother, among⟩ := aligned_left made.offered hpair
      rw [hposition, Option.some.injEq] at hother
      subst hother
      exact Or.inr ⟨position, List.mem_of_getElem? hposition, pair, among, Or.inl rfl⟩
    · exact Or.inl rfl
  · exact Or.inr ((made.started.finish made.finished).offered made.offered after)

end Enumerated

namespace ReferenceData

variable {r : ReferenceData} {group site : Nat} {b : UInt8}

/-- An active pair of the group names the particle, and the set of the site lists it. The state of
the particle itself does not matter. -/
def Lends (r : ReferenceData) (group site k : Nat) : Prop :=
  ∃ g set id pair, r.activeGroup group = .ok g ∧ r.occupationOf site = .ok set ∧ id ∈ g.pairs ∧
    r.activePair id = .ok pair ∧ (k = pair.donor ∨ k = pair.acceptor) ∧ k ∈ set.particles

theorem mem_of_occupationOf {set : ParticleSet}
    (h : r.occupationOf site = .ok set) : set ∈ r.particleSets := by
  unfold occupationOf at h
  split at h
  · next found =>
    cases h
    obtain ⟨_, _, listed⟩ := Option.bind_eq_some_iff.mp found
    exact List.mem_of_getElem? listed
  · cases h

theorem mayHold_iff {set : ParticleSet} {k : Nat} :
    mayHold set k ↔ k = voidIndex ∨ k ∈ set.particles := by
  simp [mayHold]

theorem lent_of_offerOf {offer : PositionOffer} (h : r.offerOf group site = .ok offer)
    {states : StatePair} (among : states ∈ offer.pairs)
    (one : b = states.donor ∨ b = states.acceptor) :
    b = voidByte ∨ ∃ k, r.Lends group site k ∧ b = UInt8.ofNat k := by
  obtain ⟨g, hg, h⟩ := bind_ok_iff.mp h
  obtain ⟨set, hset, h⟩ := bind_ok_iff.mp h
  obtain ⟨pairs, hpairs, h⟩ := bind_ok_iff.mp h
  have lent {p : ExchangePair} (hp : p ∈ pairs) {k : Nat} (named : k = p.donor ∨ k = p.acceptor)
      (held : mayHold set k) : UInt8.ofNat k = voidByte ∨ ∃ k', r.Lends group site k' ∧
        UInt8.ofNat k = UInt8.ofNat k' := by
    obtain ⟨id, hid, found⟩ := aligned_mem_right (mapM_ok_iff.mp hpairs) hp
    rcases mayHold_iff.mp held with rfl | listed
    · exact Or.inl rfl
    · exact Or.inr ⟨k, ⟨g, set, id, p, hg, hset, hid, found, named, listed⟩, rfl⟩
  simp only at h
  split at h
  · cases h
  · cases h
    unfold PositionOffer.of at among
    split at among
    · simp only [List.map_map, List.mem_map, List.mem_filter] at among
      obtain ⟨p, ⟨hp, fits⟩, rfl⟩ := among
      rcases one with rfl | rfl
      · exact lent hp (Or.inl rfl) (Bool.and_eq_true_iff.mp fits).1
      · exact Or.inl rfl
    · next stable =>
      simp only [List.mem_map, List.mem_filter] at among
      obtain ⟨p, ⟨hp, fits⟩, rfl⟩ := among
      obtain ⟨donor, acceptor⟩ := Bool.and_eq_true_iff.mp fits
      rcases one with rfl | rfl
      · exact lent hp (Or.inl rfl) donor
      · refine lent hp (Or.inr rfl)
          ((Bool.or_eq_true_iff.mp acceptor).resolve_left fun unstable => ?_)
        exact stable (List.any_eq_true.mpr ⟨p, hp, unstable⟩)

theorem lent_of_offersAlong {a : AbstractTransition} {sites : List Nat}
    {states : List PositionOffer} (h : r.offersAlong a sites = .ok states)
    (offered : Offered states b) : b = voidByte ∨
      ∃ group site k, (group, site) ∈ a.groups.zip sites ∧ r.Lends group site k ∧
        b = UInt8.ofNat k := by
  obtain ⟨offer, hoffer, pair, among, one⟩ := offered
  unfold offersAlong at h
  split at h
  · cases h
  · obtain ⟨⟨group, site⟩, along, made⟩ := aligned_mem_right (mapM_ok_iff.mp h) hoffer
    rcases lent_of_offerOf made among one with void | ⟨k, lends, same⟩
    · exact Or.inl void
    · exact Or.inr ⟨group, site, k, along, lends, same⟩

end ReferenceData

namespace TransitionNetwork

variable [Trigonometry] {r : ReferenceData} {config : Config} {s : CrystalStructure}
  {t : TransitionNetwork}

/-- An active transition runs the abstract transition along the sites, with a path between them or,
for an exchange, without one. -/
inductive Runs (r : ReferenceData) (config : Config) (s : CrystalStructure) :
    AbstractTransition → List Nat → Bool → Prop
  | kinetic {a : AbstractTransition} {path : List CrystalVector} (k : KineticTransition)
      (listed : k ∈ r.kineticTransitions) (active : k.isActive)
      (named : r.abstractTransition? k.abstractTransition = some a)
      (encoded : k.encodedPath config s a = .ok path) :
      Runs r config s a (path.map fun v => (CrystalStructure.siteAt s.positionSites v).getD 0) false
  | metropolis {a : AbstractTransition} (k : MetropolisTransition)
      (listed : k ∈ r.metropolisTransitions) (active : k.isActive)
      (named : r.abstractTransition? k.abstractTransition = some a) :
      Runs r config s a [k.site0, k.site1] true

def Enumerates (r : ReferenceData) (config : Config) (s : CrystalStructure) (rule : Rule) : Prop :=
  ∃ a sites metropolis states, Runs r config s a sites metropolis ∧
    r.offersAlong a sites = .ok states ∧
    rule ∈ pathRules r.particles states a.connectors metropolis

theorem Authored.enumerated {d : DraftTransition} (h : Authored r config s d) {x : Rule}
    (hx : x ∈ d.rules) : ∃ rule, Enumerates r config s rule ∧ (x = rule ∨ x = rule.swapped) := by
  cases h with
  | kinetic k listed active drafted =>
    obtain ⟨a, path, states, _, named, encoded, offered, _, _, rfl⟩ :=
      KineticTransition.draft_ok_iff.mp drafted
    obtain ⟨rule, hrule, same⟩ := mem_bothWays.mp hx
    exact ⟨rule, ⟨a, _, _, states, .kinetic k listed active named encoded, offered, hrule⟩, same⟩
  | metropolis k listed active drafted =>
    obtain ⟨a, states, _, named, _, _, offered, _, _, _, rfl⟩ :=
      MetropolisTransition.draft_ok_iff.mp drafted
    obtain ⟨rule, hrule, same⟩ := mem_bothWays.mp hx
    exact ⟨rule, ⟨a, _, _, states, .metropolis k listed active named, offered, hrule⟩, same⟩

theorem exists_draft (h : build r config s = .ok t) {a : AbstractTransition} {sites : List Nat}
    {metropolis : Bool} (runs : Runs r config s a sites metropolis) {states : List PositionOffer}
    (offered : r.offersAlong a sites = .ok states) :
    ∃ d, Authored r config s d ∧ d.rules = exchangeRules r a states metropolis := by
  obtain ⟨_, _, _, _, _, _, _, hkinetic, hmetropolis⟩ := laid_of_build h
  cases runs with
  | kinetic k listed active named encoded =>
    obtain ⟨d, _, drafted⟩ := aligned_mem_left hkinetic (List.mem_filter.mpr ⟨listed, active⟩)
    obtain ⟨a', path', states', _, named', encoded', offered', _, _, same⟩ :=
      KineticTransition.draft_ok_iff.mp drafted
    cases named.symm.trans named'
    cases encoded.symm.trans encoded'
    cases offered.symm.trans offered'
    exact ⟨d, .kinetic k listed active drafted, by rw [same]⟩
  | metropolis k listed active named =>
    obtain ⟨d, _, drafted⟩ := aligned_mem_left hmetropolis (List.mem_filter.mpr ⟨listed, active⟩)
    obtain ⟨a', states', _, named', _, _, offered', _, _, _, same⟩ :=
      MetropolisTransition.draft_ok_iff.mp drafted
    cases named.symm.trans named'
    cases offered.symm.trans offered'
    exact ⟨d, .metropolis k listed active drafted, by rw [same]⟩

/-- What does not depend on the direction of a rule holds of all rules of a network exactly when it
holds of those that the active transitions have on their ways. -/
theorem forall_rules_iff (h : build r config s = .ok t) {p : Rule → Prop}
    (swapped : ∀ rule, p rule → p rule.swapped) (inverted : ∀ rule, p rule → p rule.inverted) :
    (∀ x ∈ t.rules, p x.rule) ↔ ∀ rule, Enumerates r config s rule → p rule := by
  constructor
  · rintro shown rule ⟨a, sites, metropolis, states, runs, offered, among⟩
    obtain ⟨d, authored, rules⟩ := exists_draft h runs offered
    obtain ⟨n, m, modeled, _⟩ := modeled_of_authored h authored
    have hrule : rule ∈ d.rules := by
      rw [rules]
      exact mem_bothWays.mpr ⟨rule, among, Or.inl rfl⟩
    obtain ⟨id, _, x, hx, _, same⟩ := aligned_mem_right modeled.rules hrule
    exact same ▸ shown x (List.mem_of_getElem? hx)
  · intro shown x hx
    have each {d : DraftTransition} (authored : Authored r config s d) :
        ∀ rule ∈ d.rules, p rule := by
      intro rule hrule
      obtain ⟨own, enumerated, rfl | rfl⟩ := authored.enumerated hrule
      · exact shown _ enumerated
      · exact swapped _ (shown own enumerated)
    obtain ⟨id, hid⟩ := List.mem_iff_getElem?.mp hx
    obtain ⟨_, _, _, _, _, plan, j, laid, hplan, hj, _⟩ := laid_rule h hid
    obtain ⟨_, hrule, _⟩ := rulesOf_some hj
    have among := List.mem_of_getElem? hrule
    rcases (laid.drafted hplan).2.1 with ⟨_, authored⟩ | ⟨_, d, authored, turned⟩
    · exact each authored _ among
    · rw [DraftTransition.reversed_rules turned] at among
      obtain ⟨rule, hr, same⟩ := List.mem_map.mp among
      exact same ▸ inverted rule (each authored rule hr)

end TransitionNetwork

end CrystalModel
