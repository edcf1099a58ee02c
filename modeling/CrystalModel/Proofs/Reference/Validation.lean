import CrystalModel.Reference.Validation
import CrystalModel.Proofs.Fallible

/-! # Reference data fit for a build

Objects of checked data stand at the place that is their index, so an index names one object. -/
namespace CrystalModel.ReferenceData

theorem firstMisplaced_none {domain : Domain} {indices : List Nat} {place : Nat}
    (h : firstMisplaced domain place indices = none) {k index : Nat}
    (hk : indices[k]? = some index) : index = place + k := by
  induction indices generalizing place k with
  | nil => simp at hk
  | cons first rest ih =>
    rw [firstMisplaced] at h
    split at h
    · next same =>
      cases k with
      | zero =>
        rw [List.getElem?_cons_zero, Option.some.injEq] at hk
        omega
      | succ k =>
        have := ih h hk
        omega
    · cases h

/-- Every object of every list stands at the place that is its index. -/
structure Numbered (r : ReferenceData) : Prop where
  particles : r.particles.map (·.index) = List.range r.particles.length
  particleSets : r.particleSets.map (·.index) = List.range r.particleSets.length
  sites : r.sites.map (·.index) = List.range r.sites.length
  pairInteractions : r.pairInteractions.map (·.index) = List.range r.pairInteractions.length
  groupInteractions : r.groupInteractions.map (·.index) = List.range r.groupInteractions.length
  exchangePairs : r.exchangePairs.map (·.index) = List.range r.exchangePairs.length
  exchangeGroups : r.exchangeGroups.map (·.index) = List.range r.exchangeGroups.length
  abstractTransitions :
    r.abstractTransitions.map (·.index) = List.range r.abstractTransitions.length
  kineticTransitions : r.kineticTransitions.map (·.index) = List.range r.kineticTransitions.length
  metropolisTransitions :
    r.metropolisTransitions.map (·.index) = List.range r.metropolisTransitions.length
  simulations : r.simulations.map (·.index) = List.range r.simulations.length

theorem firstMisplaced_none_iff {domain : Domain} {indices : List Nat} {place : Nat} :
    firstMisplaced domain place indices = none ↔ indices = List.range' place indices.length := by
  induction indices generalizing place with
  | nil => simp [firstMisplaced]
  | cons index rest ih =>
    rw [firstMisplaced, List.length_cons, List.range'_succ, List.cons_eq_cons]
    by_cases here : index = place
    · rw [if_pos here, ih]
      exact ⟨fun h => ⟨here, h⟩, fun h => h.2⟩
    · rw [if_neg here]
      constructor
      · intro h
        cases h
      · rintro ⟨same, _⟩
        exact absurd same here

theorem misplaced?_none_iff {r : ReferenceData} : r.misplaced? = none ↔ r.Numbered := by
  have placed : ∀ {α : Type} {domain : Domain} {index : α → Nat} {xs : List α},
      firstMisplaced domain 0 (xs.map index) = none ↔ xs.map index = List.range xs.length := by
    intro α domain index xs
    rw [firstMisplaced_none_iff, List.length_map, List.range_eq_range']
  simp only [misplaced?, indexLists, List.findSome?_eq_none_iff, List.forall_mem_cons, placed,
    List.not_mem_nil, false_imp_iff, implies_true, and_true]
  constructor
  · rintro ⟨a, b, c, d, e, f, g, h, i, j, k⟩
    exact ⟨a, b, c, d, e, f, g, h, i, j, k⟩
  · rintro ⟨a, b, c, d, e, f, g, h, i, j, k⟩
    exact ⟨a, b, c, d, e, f, g, h, i, j, k⟩

variable {r : ReferenceData}

theorem checkPlaces_ok (h : r.checkPlaces = .ok ()) :
    r.startsWithVoid ∧ r.particles.length ≤ particleLimit ∧ r.misplaced? = none := by
  unfold checkPlaces at h
  split at h
  · cases h
  · next first =>
    split at h
    · cases h
    · next few =>
      cases found : r.misplaced? with
      | none => exact ⟨by simpa using first, by omega, rfl⟩
      | some object => simp [found] at h

/-- Data that a build accepts: the void particle first, no more particles than the masks have
bits, and every object at the place that is its index. -/
structure Fit (r : ReferenceData) : Prop where
  void : r.startsWithVoid
  few : r.particles.length ≤ particleLimit
  numbered : r.Numbered

theorem checkPlaces_ok_iff : r.checkPlaces = .ok () ↔ r.Fit := by
  constructor
  · intro h
    obtain ⟨void, few, placed⟩ := checkPlaces_ok h
    exact ⟨void, few, misplaced?_none_iff.mp placed⟩
  · intro fit
    unfold checkPlaces
    rw [fit.void, if_neg (by simp), if_neg (Nat.not_lt_of_le fit.few),
      misplaced?_none_iff.mpr fit.numbered]

theorem Fit.index_lt (fit : r.Fit) {k : Nat} (exist : k < r.particles.length) : k < 256 := by
  have few := fit.few
  unfold particleLimit at few
  omega

theorem placed_of_checkPlaces (h : r.checkPlaces = .ok ()) {domain : Domain}
    {indices : List Nat} (listed : (domain, indices) ∈ r.indexLists) {k index : Nat}
    (hk : indices[k]? = some index) : index = k := by
  obtain ⟨_, _, fine⟩ := checkPlaces_ok h
  have := firstMisplaced_none (List.findSome?_eq_none_iff.mp fine _ listed) hk
  omega

theorem index_of_getElem? {α : Type} {xs : List α} {index : α → Nat} (h : r.checkPlaces = .ok ())
    {domain : Domain} (listed : (domain, xs.map index) ∈ r.indexLists) {k : Nat} {x : α}
    (hx : xs[k]? = some x) : index x = k := by
  refine placed_of_checkPlaces h listed ?_
  rw [List.getElem?_map, hx]
  rfl

theorem site_index (h : r.checkPlaces = .ok ()) {k : Nat} {site : Site}
    (hk : r.sites[k]? = some site) : site.index = k := by
  have listed : (Domain.site, r.sites.map (·.index)) ∈ r.indexLists := by
    simp [indexLists]
  exact index_of_getElem? h listed hk

theorem pairInteraction_index (h : r.checkPlaces = .ok ()) {k : Nat} {i : PairInteraction}
    (hi : r.pairInteractions[k]? = some i) : i.index = k := by
  have listed : (Domain.pairInteraction, r.pairInteractions.map (·.index)) ∈ r.indexLists := by
    simp [indexLists]
  exact index_of_getElem? h listed hi

theorem groupInteraction_index (h : r.checkPlaces = .ok ()) {k : Nat} {i : GroupInteraction}
    (hi : r.groupInteractions[k]? = some i) : i.index = k := by
  have listed : (Domain.groupInteraction, r.groupInteractions.map (·.index)) ∈ r.indexLists := by
    simp [indexLists]
  exact index_of_getElem? h listed hi

theorem kineticTransition_index (h : r.checkPlaces = .ok ()) {k : Nat} {m : KineticTransition}
    (hm : r.kineticTransitions[k]? = some m) : m.index = k := by
  have listed : (Domain.kineticTransition, r.kineticTransitions.map (·.index)) ∈
      r.indexLists := by
    simp [indexLists]
  exact index_of_getElem? h listed hm

theorem metropolisTransition_index (h : r.checkPlaces = .ok ()) {k : Nat}
    {m : MetropolisTransition} (hm : r.metropolisTransitions[k]? = some m) : m.index = k := by
  have listed : (Domain.metropolisTransition, r.metropolisTransitions.map (·.index)) ∈
      r.indexLists := by
    simp [indexLists]
  exact index_of_getElem? h listed hm

theorem pairInteraction_unique (h : r.checkPlaces = .ok ()) {i j : PairInteraction}
    (hi : i ∈ r.pairInteractions) (hj : j ∈ r.pairInteractions) (same : i.index = j.index) :
    i = j := by
  obtain ⟨k, hk⟩ := List.mem_iff_getElem?.mp hi
  obtain ⟨l, hl⟩ := List.mem_iff_getElem?.mp hj
  rw [pairInteraction_index h hk, pairInteraction_index h hl] at same
  rw [same, hl, Option.some.injEq] at hk
  exact hk.symm

/-- Positions of one site in a row, without any symmetry: each is paired and clustered with the
next one, and one species jumps to the next one. -/
def chain : ReferenceData where
  cell := .cubic 3.0
  spaceGroup := .trivial
  particles := [.void, ⟨1, "A", "A", 1.0, false, .active⟩, ⟨2, "Vc", "Vc", 0.0, true, .active⟩]
  particleSets := [⟨0, "species", [1, 2], .active⟩]
  sites := [⟨0, "a", ⟨0.0, 0.0, 0.0⟩, 0, .stable, .active⟩]
  pairInteractions := [⟨0, 0, 0, ⟨0.0, 0.0, 0.0⟩, ⟨1.0, 0.0, 0.0⟩, .symmetric, [], .active⟩]
  groupInteractions := [⟨0, 0, [⟨1.0, 0.0, 0.0⟩], [], .active⟩]
  exchangePairs := [⟨0, 1, 2, false, .active⟩]
  exchangeGroups := [⟨0, [0], .active⟩]
  abstractTransitions := [⟨0, "hop", [0, 0], [.dynamic], .active⟩]
  kineticTransitions := [⟨0, "along", 0, [⟨0.0, 0.0, 0.0⟩, ⟨1.0, 0.0, 0.0⟩], 1.0e13, .active⟩]
  metropolisTransitions := [⟨0, "within", 0, 0, 0, .active⟩]
  simulations :=
    [⟨0, "exchange", .metropolis, [0], ⟨0.0, 0.0, 0.0⟩, 0.0, 1000.0, ⟨4, 4, 4⟩, some 1, 100,
        .active⟩,
      ⟨1, "drift", .kinetic, [0], ⟨1.0, 0.0, 0.0⟩, 1.0e8, 1000.0, ⟨4, 4, 4⟩, some 2, 100, .active⟩]

example : chain.checkPlaces = .ok () := by decide +kernel

/-- The chain beside a second one, whose positions all hold the same species. The only cluster lies
in the second one. -/
def twoChains : ReferenceData := { chain with
  particleSets := [⟨0, "species", [1, 2], .active⟩, ⟨1, "fixed", [1], .active⟩]
  sites := [⟨0, "a", ⟨0.0, 0.0, 0.0⟩, 0, .stable, .active⟩,
    ⟨1, "b", ⟨0.5, 0.5, 0.5⟩, 1, .stable, .active⟩]
  pairInteractions := [⟨0, 0, 0, ⟨0.0, 0.0, 0.0⟩, ⟨1.0, 0.0, 0.0⟩, .symmetric, [], .active⟩,
    ⟨1, 1, 1, ⟨0.5, 0.5, 0.5⟩, ⟨1.5, 0.5, 0.5⟩, .symmetric, [], .active⟩]
  groupInteractions := [⟨0, 1, [⟨1.5, 0.5, 0.5⟩], [], .active⟩] }

def plainConfig : Config := ⟨1.0e-6, 1.0e-9, some 0, pathLimit, false, true⟩

@[reducible] def rightAngle : Trigonometry := ⟨fun _ => 1.0, fun _ => 6.123233995736766e-17⟩

end CrystalModel.ReferenceData
