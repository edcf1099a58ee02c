import CrystalModel.Proofs.Reference.Validation
import CrystalModel.Proofs.Transition.Build

/-! # Inverse models and mappings

A model that finds its turned paths among its own is its own inverse. Every other model has an
appended one, and their mappings belong to each other one by one. -/
namespace CrystalModel

def StartsInOrigin (path : List CrystalVector) : Prop :=
  ∀ first, path.head? = some first → first.cell = ⟨0, 0, 0⟩

theorem CrystalVector.shifted_back (v w : CrystalVector) :
    (v.shifted (-w.cell)).shifted (-(-w.cell)) = v := by
  have word : ∀ a b : Int32, a + -b + - -b = a := by
    intro a b
    grind
  obtain ⟨a, b, c, p⟩ := v
  change (⟨a + -w.a + - -w.a, b + -w.b + - -w.b, c + -w.c + - -w.c, p⟩ : CrystalVector) = _
  rw [word, word, word]

theorem turnedPath_turnedPath {path : List CrystalVector} (origin : StartsInOrigin path) :
    turnedPath (turnedPath path) = path := by
  cases path with
  | nil => rfl
  | cons first rest =>
    obtain ⟨last, hlast⟩ : ∃ last, (first :: rest).getLast? = some last :=
      ⟨_, List.getLast?_eq_some_getLast (List.cons_ne_nil first rest)⟩
    have turned : turnedPath (first :: rest) =
        (first :: rest).reverse.map (·.shifted (-last.cell)) := by
      simp only [turnedPath, hlast]
    have start : first.cell = ⟨0, 0, 0⟩ := origin first rfl
    have finish : (turnedPath (first :: rest)).getLast? = some (first.shifted (-last.cell)) := by
      rw [turned, List.getLast?_map, List.getLast?_reverse]
      rfl
    have cell : (first.shifted (-last.cell)).cell = -last.cell := by
      have word : ∀ a b : Int32, a = 0 → a + b = b := by
        intro a b
        grind
      have zero := start
      simp only [CrystalVector.cell, Vec3.mk.injEq] at zero
      change (⟨first.a + -last.a, first.b + -last.b, first.c + -last.c⟩ : CellOffset) = _
      rw [word _ _ zero.1, word _ _ zero.2.1, word _ _ zero.2.2]
      rfl
    rw [turnedPath, finish]
    simp only [cell]
    simp only [turned, List.map_reverse, List.reverse_reverse, List.map_map]
    conv_rhs => rw [← List.map_id (first :: rest)]
    apply List.map_congr_left
    intro v _
    exact CrystalVector.shifted_back v last

namespace TransitionPlan

/-- How a plan finds its inverse: its mappings are linked among themselves, or it and another plan
point to each other and their mappings go side by side. -/
inductive Answered (plans : List TransitionPlan) (k : Nat) (plan : TransitionPlan) : Prop where
  | own (self : plan.inverse = k) (forward : plan.isInverse = false)
      (links : List.Forall₂ (fun (x : PathDraft) link =>
        (plan.draft.mappings.map (·.path)).idxOf? (turnedPath x.path) = some link)
        plan.draft.mappings plan.links)
  | other (answer : TransitionPlan) (found : plans[plan.inverse]? = some answer)
      (back : answer.inverse = k) (apart : plan.isInverse = !answer.isInverse)
      (kind : answer.draft.kind = plan.draft.kind)
      (reference : answer.draft.reference = plan.draft.reference)
      (count : answer.draft.mappings.length = plan.draft.mappings.length)
      (links : plan.links = List.range plan.draft.mappings.length)

variable {plans : List TransitionPlan}

theorem Answered.answer {k : Nat} {plan : TransitionPlan} (h : Answered plans k plan)
    (hk : plans[k]? = some plan) : ∃ answer, plans[plan.inverse]? = some answer ∧
      answer.inverse = k ∧ (plan.inverse ≠ k ↔ plan.isInverse = true ∨ answer.isInverse = true) ∧
      answer.draft.kind = plan.draft.kind ∧ answer.draft.reference = plan.draft.reference := by
  cases h with
  | own self forward _ =>
    exact ⟨plan, self ▸ hk, self, by simp [self, forward], rfl, rfl⟩
  | other answer found back apart kind reference _ _ =>
    refine ⟨answer, found, back, ?_, kind, reference⟩
    constructor
    · intro _
      cases turned : answer.isInverse with
      | false => exact Or.inl (by rw [apart, turned]; rfl)
      | true => exact Or.inr rfl
    · intro _ self
      rw [self, hk, Option.some.injEq] at found
      subst found
      cases turned : plan.isInverse <;> simp [turned] at apart

/-- The plan of a draft that waits, at place `k`, and the appended one at place `j`. -/
structure Opposite (plans : List TransitionPlan) (k j : Nat) (plan answer : TransitionPlan) :
    Prop where
  found : plans[k]? = some plan
  appended : plans[j]? = some answer
  there : plan.inverse = j
  back : answer.inverse = k
  forward : plan.isInverse = false
  backward : answer.isInverse = true
  kind : answer.draft.kind = plan.draft.kind
  reference : answer.draft.reference = plan.draft.reference
  count : answer.draft.mappings.length = plan.draft.mappings.length
  links : plan.links = List.range plan.draft.mappings.length
  answers : answer.links = List.range answer.draft.mappings.length

theorem Opposite.answered {k j : Nat} {plan answer : TransitionPlan}
    (h : Opposite plans k j plan answer) :
    Answered plans k plan ∧ Answered plans j answer := by
  constructor
  · refine .other answer (h.there ▸ h.appended) h.back ?_ h.kind h.reference h.count h.links
    rw [h.forward, h.backward]
    rfl
  · refine .other plan (h.back ▸ h.found) h.there ?_ h.kind.symm h.reference.symm h.count.symm
      h.answers
    rw [h.forward, h.backward]
    rfl

variable [Trigonometry] {e : Encoder} {drafts : List DraftTransition}

theorem Layout.opposite {own : List (Option (List Nat))} {turned : List DraftTransition}
    (layout : Layout e drafts own turned plans) {place k : Nat}
    (waiting : (pending own)[place]? = some k) :
    ∃ plan answer, Opposite plans k (drafts.length + place) plan answer := by
  obtain ⟨d₀, d, hd₀, hturned, answer⟩ := layout.appended waiting
  obtain ⟨d₀', links, hd₀', hlinks, _, plan⟩ :=
    layout.authored (List.getElem?_eq_some_iff.mp hd₀).1
  rw [hd₀, Option.some.injEq] at hd₀'
  subst hd₀'
  have unlinked := mem_pending.mp (List.mem_of_getElem? waiting)
  rw [hlinks, Option.some.injEq] at unlinked
  subst unlinked
  obtain ⟨kind, reference, aligned⟩ := DraftTransition.reversed_some hturned
  refine ⟨_, _, plan, answer, ?_, rfl, rfl, rfl, kind, reference, aligned.length_eq.symm, rfl, rfl⟩
  simp only [TransitionPlan.authored, idxOf?_of_nodup (pending_nodup own) waiting,
    Option.getD_some]

theorem answered_of_ofDrafts (h : ofDrafts e drafts = .ok plans) {k : Nat}
    {plan : TransitionPlan} (hk : plans[k]? = some plan) : Answered plans k plan := by
  obtain ⟨own, turned, layout⟩ := layout_of_ofDrafts h
  -- an authored plan links itself or waits for an appended one; an appended plan answers its draft
  by_cases among : k < drafts.length
  · obtain ⟨d, links, hd, hlinks, hown, found⟩ := layout.authored among
    rw [hk, Option.some.injEq] at found
    cases links with
    | some links =>
      rw [found]
      exact .own rfl rfl (DraftTransition.ownLinks_some hown)
    | none =>
      obtain ⟨place, waiting⟩ := List.mem_iff_getElem?.mp (mem_pending.mpr hlinks)
      obtain ⟨_, _, opposite⟩ := layout.opposite waiting
      have same := opposite.found
      rw [hk, Option.some.injEq] at same
      exact same ▸ opposite.answered.1
  · obtain ⟨place, forward, rfl, waiting⟩ :=
      layout.waiting (List.getElem?_eq_some_iff.mp hk).1 (by omega)
    obtain ⟨_, _, opposite⟩ := layout.opposite waiting
    have same := opposite.appended
    rw [hk, Option.some.injEq] at same
    exact same ▸ opposite.answered.2

end TransitionPlan

namespace TransitionNetwork

open TransitionPlan

variable {plans : List TransitionPlan} {base : Base} {k j : Nat} {plan : TransitionPlan}

/-- A mapping and the one it names as its inverse, at place `i` of the answering plan. -/
structure Linking (base : Base) (plans : List TransitionPlan) (k : Nat) (plan : TransitionPlan)
    (j : Nat) (y : Mapping) (answer : TransitionPlan) (i : Nat) (y' : Mapping) : Prop where
  found : plans[plan.inverse]? = some answer
  back : answer.inverse = k
  answered : (mappingsOf base plans answer)[i]? = some y'
  inverse : y.inverse = base.mappings + mappingsBefore plans plan.inverse + i
  place : (plan.inverse ≠ k ∧ i = j) ∨ (plan.inverse = k ∧
    (plan.draft.mappings.map (·.path)).idxOf? (turnedPath y.path) = some i)

theorem linking_of_answered (numbered : Numbered plans) (answered : Answered plans k plan)
    (hk : plans[k]? = some plan) {y : Mapping} (hy : (mappingsOf base plans plan)[j]? = some y) :
    ∃ answer i y', Linking base plans k plan j y answer i y' := by
  obtain ⟨x, link, hx, hlink, path, _, inverse⟩ := mappingsOf_some hy
  obtain ⟨answer, found, back, apart, _⟩ := answered.answer hk
  have linked := numbered.linked answer (List.mem_of_getElem? found)
  cases answered with
  | own self forward links =>
    obtain ⟨link', hlink', first⟩ := aligned_left links hx
    rw [hlink, Option.some.injEq] at hlink'
    subst hlink'
    rw [self, hk, Option.some.injEq] at found
    subst found
    have among := getElem?_of_idxOf? first
    rw [List.getElem?_map] at among
    obtain ⟨z, hz, _⟩ := Option.map_eq_some_iff.mp among
    obtain ⟨y', hy', _⟩ := mappingsOf_getElem? base plans linked hz
    exact ⟨plan, link, y', by rw [self, hk], self, hy', inverse, Or.inr ⟨self, path ▸ first⟩⟩
  | other answer' found' _ turned _ _ count links =>
    rw [found, Option.some.injEq] at found'
    subst found'
    have inside := (List.getElem?_eq_some_iff.mp hx).1
    rw [links, List.getElem?_range inside, Option.some.injEq] at hlink
    subst hlink
    obtain ⟨y', hy', _⟩ := mappingsOf_getElem? base plans linked
      (List.getElem?_eq_getElem (count ▸ inside : j < answer.draft.mappings.length))
    refine ⟨answer, j, y', found, back, hy', inverse, Or.inl ⟨apart.mpr ?_, rfl⟩⟩
    cases forward : answer.isInverse with
    | false => exact Or.inl (by rw [turned, forward]; rfl)
    | true => exact Or.inr rfl

namespace Linking

variable {answer : TransitionPlan} {i : Nat} {y y' : Mapping}

theorem stored {particles : List Particle} {t : TransitionNetwork}
    (link : Linking base plans k plan j y answer i y') (stored : Stored particles t base plans) :
    t.mappings[y.inverse]? = some y' := by
  rw [link.inverse]
  exact stored.mappings _ answer link.found i y' link.answered

theorem returns (link : Linking base plans k plan j y answer i y') (numbered : Numbered plans)
    (answered : Answered plans plan.inverse answer) (apart : plan.inverse ≠ k) :
    y'.inverse = base.mappings + mappingsBefore plans k + j := by
  obtain ⟨_, i', _, again⟩ := linking_of_answered numbered answered link.found link.answered
  have there : i = j := by
    rcases link.place with ⟨_, same⟩ | ⟨self, _⟩
    · exact same
    · exact absurd self apart
  have home : i' = i := by
    rcases again.place with ⟨_, same⟩ | ⟨self, _⟩
    · exact same
    · exact absurd (self.symm.trans link.back) apart
  rw [again.inverse, link.back, home, there]

theorem path_of_own (link : Linking base plans k plan j y answer i y')
    (hk : plans[k]? = some plan) (self : plan.inverse = k) :
    (plan.draft.mappings.map (·.path)).idxOf? (turnedPath y.path) = some i ∧
      answer = plan ∧ y'.path = turnedPath y.path := by
  have first : (plan.draft.mappings.map (·.path)).idxOf? (turnedPath y.path) = some i := by
    rcases link.place with ⟨apart, _⟩ | ⟨_, first⟩
    · exact absurd self apart
    · exact first
  have found := link.found
  rw [self, hk, Option.some.injEq] at found
  subst found
  refine ⟨first, rfl, ?_⟩
  obtain ⟨x, _, hx, _, path, _⟩ := mappingsOf_some link.answered
  have among := getElem?_of_idxOf? first
  rw [List.getElem?_map, hx] at among
  exact path.trans (Option.some.inj among)

theorem returns_of_own (link : Linking base plans k plan j y answer i y')
    (numbered : Numbered plans) (answered : Answered plans k plan) (hk : plans[k]? = some plan)
    (self : plan.inverse = k) (hy : (mappingsOf base plans plan)[j]? = some y)
    (distinct : (plan.draft.mappings.map (·.path)).Nodup) (origin : StartsInOrigin y.path) :
    y'.inverse = base.mappings + mappingsBefore plans k + j := by
  obtain ⟨_, rfl, path⟩ := link.path_of_own hk self
  obtain ⟨_, i', _, again⟩ := linking_of_answered numbered answered hk link.answered
  obtain ⟨first, _, _⟩ := again.path_of_own hk self
  rw [path, turnedPath_turnedPath origin] at first
  obtain ⟨x, _, hx, _, samePath, _⟩ := mappingsOf_some hy
  have here : (answer.draft.mappings.map (·.path))[j]? = some y.path := by
    rw [List.getElem?_map, hx, samePath]
    rfl
  rw [idxOf?_of_nodup distinct here, Option.some.injEq] at first
  rw [again.inverse, self, first]

end Linking

/-- The model or mapping that undoes another one is undone by it. -/
structure InverselyLinked (t : TransitionNetwork) : Prop where
  involutive : ∀ (n : Nat) (m : LinkedTransition), t.transitions[n]? = some m →
    ∃ m', t.transitions[m.inverse]? = some m' ∧ m'.inverse = n ∧ m'.kind = m.kind ∧
      m'.reference = m.reference
  apart : ∀ (n : Nat) (m m' : LinkedTransition), t.transitions[n]? = some m →
    t.transitions[m.inverse]? = some m' →
    (m.inverse ≠ n ↔ m.isInverse = true ∨ m'.isInverse = true)
  numbered : ∀ kind, ∃ count, ∀ (place n : Nat) (m : LinkedTransition),
    (t.ofKind kind)[place]? = some n → t.transitions[n]? = some m →
    m.modelId = place ∧ (m.isInverse = true ↔ count ≤ place)
  answered : ∀ (id : Nat) (y : Mapping), t.mappings[id]? = some y → ∃ m m' y',
    t.transitions[y.transition]? = some m ∧ id ∈ m.mappings ∧
    t.mappings[y.inverse]? = some y' ∧ y'.transition = m.inverse ∧
    t.transitions[m.inverse]? = some m' ∧ y.inverse ∈ m'.mappings
  returns : ∀ (id : Nat) (y y' : Mapping) (m : LinkedTransition), t.mappings[id]? = some y →
    t.transitions[y.transition]? = some m → m.inverse ≠ y.transition →
    t.mappings[y.inverse]? = some y' → y'.inverse = id
  turned : ∀ (n : Nat) (m : LinkedTransition), t.transitions[n]? = some m → m.inverse = n →
    (t.pathsOf m).Nodup → (∀ path ∈ t.pathsOf m, StartsInOrigin path) →
    ∀ id ∈ m.mappings, ∀ y y', t.mappings[id]? = some y → t.mappings[y.inverse]? = some y' →
      y'.inverse = id ∧ y'.path = turnedPath y.path

section Network

variable [Trigonometry] {r : ReferenceData} {config : Config} {s : CrystalStructure}
  {t : TransitionNetwork} {kind : SimulationKind} {drafts : List DraftTransition}

namespace Laid

theorem answered (laid : Laid r config s t kind base drafts plans) (hk : plans[k]? = some plan) :
    Answered plans k plan :=
  answered_of_ofDrafts laid.planned hk

theorem found (laid : Laid r config s t kind base drafts plans) (hk : plans[k]? = some plan) :
    t.transitions[base.transitions + k]? = some (model base plans plan) ∧
      (model base plans plan).modelId = k ∧
      ((model base plans plan).isInverse = true ↔ drafts.length ≤ k) := by
  have planned := planned_of_ofDrafts laid.planned hk
  refine ⟨laid.stored.transitions k plan hk, planned.numbered, ?_⟩
  rcases planned.origin with ⟨low, forward, _⟩ | ⟨high, backward, _⟩
  · simp only [model, forward]
    simp [low]
  · simp only [model, backward]
    simp [high]

theorem mapped (laid : Laid r config s t kind base drafts plans) (hk : plans[k]? = some plan)
    {y : Mapping} (hy : (mappingsOf base plans plan)[j]? = some y) :
    y.transition = base.transitions + k ∧
      t.mappings[base.mappings + mappingsBefore plans k + j]? = some y ∧
      base.mappings + mappingsBefore plans k + j ∈
        (model base plans plan).mappings := by
  obtain ⟨x, _, hx, _, _, owner, _⟩ := mappingsOf_some hy
  have place := laid.numbering.place k plan hk
  refine ⟨place ▸ owner, laid.stored.mappings k plan hk j y hy, ?_⟩
  simp only [model, place, List.mem_range'_1]
  have := (List.getElem?_eq_some_iff.mp hx).1
  omega

theorem listed (laid : Laid r config s t kind base drafts plans) (hk : plans[k]? = some plan)
    {id : Nat} (hid : id ∈ (model base plans plan).mappings) :
    ∃ j y, (mappingsOf base plans plan)[j]? = some y ∧ t.mappings[id]? = some y ∧
      id = base.mappings + mappingsBefore plans k + j := by
  have place := laid.numbering.place k plan hk
  simp only [model, place, List.mem_range'_1] at hid
  have inside : id - (base.mappings + mappingsBefore plans k) < plan.draft.mappings.length := by
    omega
  obtain ⟨y, hy, _⟩ := mappingsOf_getElem? base plans
    (laid.numbering.linked plan (List.mem_of_getElem? hk)) (List.getElem?_eq_getElem inside)
  have same : base.mappings + mappingsBefore plans k +
      (id - (base.mappings + mappingsBefore plans k)) = id := by
    omega
  exact ⟨_, y, hy, same ▸ (laid.mapped hk hy).2.1, same.symm⟩

end Laid

theorem Laid.kinds (laid : Laid r config s t kind base drafts plans) :
    ∀ m ∈ plans.map (model base plans), m.kind = kind := by
  intro m hm
  obtain ⟨plan, hplan, rfl⟩ := List.mem_map.mp hm
  obtain ⟨k, hk⟩ := List.mem_iff_getElem?.mp hplan
  exact (laid.stored.drafted laid.authored laid.planned hk).2.2.1

theorem ofKind_of_build (h : build r config s = .ok t) (kind : SimulationKind) :
    ∃ base drafts plans, Laid r config s t kind base drafts plans ∧
      t.ofKind kind = List.range' base.transitions plans.length := by
  obtain ⟨kinetic, kineticPlans, metropolis, metropolisPlans, same, first, second, _⟩ :=
    laid_of_build h
  have parts : t.transitions = kineticPlans.map (model empty.nextBase kineticPlans) ++
      metropolisPlans.map (model (empty.append r.particles kineticPlans).nextBase
        metropolisPlans) := by
    rw [same]
    rfl
  have keep : ∀ (m : LinkedTransition) (place n : Nat),
      (if m.kind = kind then some place else none) = some n ↔ m.kind = kind ∧ place = n := by
    simp
  have other : SimulationKind.kinetic ≠ .metropolis := by decide
  unfold ofKind
  rw [parts, List.zipIdx_append, List.filterMap_append]
  cases kind with
  | kinetic =>
    refine ⟨_, _, _, first, ?_⟩
    rw [places_all keep first.kinds, places_none keep fun m hm => (second.kinds m hm) ▸ other.symm,
      List.append_nil, List.length_map]
    rfl
  | metropolis =>
    refine ⟨_, _, _, second, ?_⟩
    rw [places_none keep fun m hm => (first.kinds m hm) ▸ other, places_all keep second.kinds,
      List.nil_append, List.length_map]
    simp [nextBase, append, empty]

section Built

variable {n id : Nat} {m m' : LinkedTransition} {y y' : Mapping}

theorem inverse_inverse (h : build r config s = .ok t) (hm : t.transitions[n]? = some m) :
    ∃ m', t.transitions[m.inverse]? = some m' ∧ m'.inverse = n ∧ m'.kind = m.kind ∧
      m'.reference = m.reference := by
  obtain ⟨_, base, _, plans, k, plan, laid, hk, rfl, rfl⟩ := laid_transition h hm
  obtain ⟨answer, found, back, _, kind, reference⟩ := (laid.answered hk).answer hk
  refine ⟨_, (laid.found found).1, ?_, kind, reference⟩
  simp only [model, back]

theorem inverse_apart (h : build r config s = .ok t) (hm : t.transitions[n]? = some m)
    (hm' : t.transitions[m.inverse]? = some m') :
    m.inverse ≠ n ↔ m.isInverse = true ∨ m'.isInverse = true := by
  obtain ⟨_, base, _, plans, k, plan, laid, hk, rfl, rfl⟩ := laid_transition h hm
  obtain ⟨answer, found, _, apart, _⟩ := (laid.answered hk).answer hk
  have same := (laid.found found).1.symm.trans hm'
  rw [Option.some.injEq] at same
  rw [← same]
  simp only [model, ne_eq, Nat.add_left_cancel_iff]
  exact apart

theorem modelIds_of_build (h : build r config s = .ok t) (kind : SimulationKind) :
    ∃ count, ∀ (place n : Nat) (m : LinkedTransition), (t.ofKind kind)[place]? = some n →
      t.transitions[n]? = some m → m.modelId = place ∧ (m.isInverse = true ↔ count ≤ place) := by
  obtain ⟨base, drafts, plans, laid, row⟩ := ofKind_of_build h kind
  refine ⟨drafts.length, fun place n m hplace hm => ?_⟩
  rw [row] at hplace
  have inside := (List.getElem?_eq_some_iff.mp hplace).1
  rw [List.length_range'] at inside
  rw [List.getElem?_range' inside, Option.some.injEq, Nat.one_mul] at hplace
  obtain ⟨found, number, appended⟩ := laid.found (List.getElem?_eq_getElem inside)
  rw [← hplace, found, Option.some.injEq] at hm
  subst hm
  exact ⟨number, appended⟩

theorem mapping_listed (h : build r config s = .ok t) (hy : t.mappings[id]? = some y) :
    ∃ m, t.transitions[y.transition]? = some m ∧ id ∈ m.mappings := by
  obtain ⟨_, base, _, plans, k, plan, j, laid, hk, hj, rfl⟩ := laid_mapping h hy
  obtain ⟨owner, _, among⟩ := laid.mapped hk hj
  exact ⟨_, owner ▸ (laid.found hk).1, among⟩

/-- The inverse of a mapping is listed by the inverse of its model. -/
theorem inverse_listed (h : build r config s = .ok t) (hm : t.transitions[n]? = some m)
    (hid : id ∈ m.mappings) : ∃ y y' m', t.mappings[id]? = some y ∧
      t.mappings[y.inverse]? = some y' ∧ y'.transition = m.inverse ∧
      t.transitions[m.inverse]? = some m' ∧ y.inverse ∈ m'.mappings := by
  obtain ⟨_, base, _, plans, k, plan, laid, hk, rfl, rfl⟩ := laid_transition h hm
  obtain ⟨j, y, hj, hy, _⟩ := laid.listed hk hid
  obtain ⟨answer, i, y', link⟩ := linking_of_answered laid.numbering (laid.answered hk) hk hj
  obtain ⟨owner, _, among⟩ := laid.mapped link.found link.answered
  rw [← link.inverse] at among
  exact ⟨y, y', _, hy, link.stored laid.stored, owner, (laid.found link.found).1, among⟩

theorem inverse_returns (h : build r config s = .ok t) (hy : t.mappings[id]? = some y)
    (hm : t.transitions[y.transition]? = some m) (apart : m.inverse ≠ y.transition)
    (hy' : t.mappings[y.inverse]? = some y') : y'.inverse = id := by
  obtain ⟨_, base, _, plans, k, plan, j, laid, hk, hj, rfl⟩ := laid_mapping h hy
  obtain ⟨owner, _, _⟩ := laid.mapped hk hj
  obtain ⟨answer, i, z, link⟩ := linking_of_answered laid.numbering (laid.answered hk) hk hj
  rw [link.stored laid.stored, Option.some.injEq] at hy'
  subst hy'
  rw [owner, (laid.found hk).1, Option.some.injEq] at hm
  subst hm
  refine link.returns laid.numbering (laid.answered link.found) ?_
  intro self
  apply apart
  rw [owner, model, self]

theorem inverse_turned (h : build r config s = .ok t) (hm : t.transitions[n]? = some m)
    (self : m.inverse = n) (distinct : (t.pathsOf m).Nodup)
    (origin : ∀ path ∈ t.pathsOf m, StartsInOrigin path) (hid : id ∈ m.mappings)
    (hy : t.mappings[id]? = some y) (hy' : t.mappings[y.inverse]? = some y') :
    y'.inverse = id ∧ y'.path = turnedPath y.path := by
  obtain ⟨_, base, _, plans, k, plan, laid, hk, rfl, rfl⟩ := laid_transition h hm
  have modeled := laid.stored.modeled laid.numbering hk
  rw [modeled.pathsOf_eq] at distinct origin
  have own : plan.inverse = k := by
    simpa [model] using self
  obtain ⟨j, z, hj, hz, rfl⟩ := laid.listed hk hid
  rw [hy, Option.some.injEq] at hz
  subst hz
  obtain ⟨answer, i, z, link⟩ := linking_of_answered laid.numbering (laid.answered hk) hk hj
  rw [link.stored laid.stored, Option.some.injEq] at hy'
  subst hy'
  obtain ⟨x, _, hx, _, path, _⟩ := mappingsOf_some hj
  have start : StartsInOrigin y.path := by
    rw [path]
    exact origin _ (List.mem_map_of_mem (List.mem_of_getElem? hx))
  obtain ⟨_, _, turned⟩ := link.path_of_own hk own
  exact ⟨link.returns_of_own laid.numbering (laid.answered hk) hk own hj distinct start, turned⟩

/-- Inverses are mutual: those of the models always, those of the mappings between a model and its
appended inverse, and within a model whose mappings start in the origin cell on paths of their
own. -/
theorem inverselyLinked_of_build (h : build r config s = .ok t) : InverselyLinked t := by
  constructor
  · intro n m hm
    exact inverse_inverse h hm
  · intro n m m' hm hm'
    exact inverse_apart h hm hm'
  · intro kind
    exact modelIds_of_build h kind
  · intro id y hy
    obtain ⟨m, hm, hid⟩ := mapping_listed h hy
    obtain ⟨z, y', m', hz, hy', owner, hm', among⟩ := inverse_listed h hm hid
    rw [hy, Option.some.injEq] at hz
    subst hz
    exact ⟨m, m', y', hm, hid, hy', owner, hm', among⟩
  · intro id y y' m hy hm apart hy'
    exact inverse_returns h hy hm apart hy'
  · intro n m hm self distinct origin id hid y y' hy hy'
    exact inverse_turned h hm self distinct origin hid hy hy'

end Built

end Network

open ReferenceData in
theorem chain_inverselyLinked : ∃ s t, @build rightAngle chain plainConfig s = .ok t ∧
    t.transitions.map (fun m => (m.kind, m.isInverse, m.inverse)) =
      [(.kinetic, false, 1), (.kinetic, true, 0), (.metropolis, false, 2)] ∧
    t.mappings.map (·.inverse) = [1, 0, 2] ∧ InverselyLinked t := by
  have found : (do
      let s ← @CrystalStructure.build rightAngle chain plainConfig
      @build rightAngle chain plainConfig s : Except BuildError TransitionNetwork).toOption.any
      fun t =>
        decide (t.transitions.map (fun m => (m.kind, m.isInverse, m.inverse)) =
          [(.kinetic, false, 1), (.kinetic, true, 0), (.metropolis, false, 2)] ∧
          t.mappings.map (·.inverse) = [1, 0, 2]) := by decide +kernel
  obtain ⟨t, h, facts⟩ := ok_of_any found
  obtain ⟨s, _, network⟩ := bind_ok_iff.mp h
  obtain ⟨models, mappings⟩ := of_decide_eq_true facts
  exact ⟨s, t, network, models, mappings, @inverselyLinked_of_build rightAngle _ _ _ _ network⟩

end TransitionNetwork

end CrystalModel
