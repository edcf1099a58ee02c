import CrystalModel.Proofs.Geometry.Encoder
import CrystalModel.Proofs.Transition.Draft
import CrystalModel.Proofs.Transition.Link
import CrystalModel.Transition.Build

/-! # Numbered models

The arenas of a network hold the models of one kind one behind the other. Every number that a
model carries leads back to the part of its draft that it was given for. -/
namespace CrystalModel

theorem Numeric.total_eq_length {α β : Type} {xs : List α} {f : α → List β} {count : α → Nat}
    (h : ∀ x ∈ xs, count x = (f x).length) : total (xs.map count) = (xs.flatMap f).length := by
  induction xs with
  | nil => rfl
  | cons x rest ih =>
    rw [List.map_cons, total, h x List.mem_cons_self, List.flatMap_cons, List.length_append,
      ih fun y hy => h y (List.mem_cons_of_mem x hy)]

namespace TransitionNetwork

variable {particles : List Particle} {plans : List TransitionPlan} {base : Base}

/-- Plans that number themselves by their places and link all their mappings. -/
structure Numbered (plans : List TransitionPlan) : Prop where
  place : ∀ (k : Nat) (plan : TransitionPlan), plans[k]? = some plan → plan.modelId = k
  linked : ∀ plan ∈ plans, plan.links.length = plan.draft.mappings.length

theorem mappingsBefore_eq (h : Numbered plans) (base : Base) (k : Nat) :
    mappingsBefore plans k = ((plans.take k).flatMap (mappingsOf base plans)).length := by
  refine Numeric.total_eq_length fun plan hp => ?_
  have := h.linked plan (List.mem_of_mem_take hp)
  simp [mappingsOf, this]

@[simp] theorem ruleLinks_length (rules : List Rule) : (ruleLinks rules).length = rules.length := by
  unfold ruleLinks
  refine List.foldlRecOn (motive := fun links : List (Option Nat) =>
    links.length = rules.length) _ _ (List.length_map _) ?_
  intro links ih i _
  unfold RuleLinks.link
  split
  · split
    · rw [List.length_set, List.length_set, ih]
    · exact ih
  · exact ih

theorem rulesBefore_eq (particles : List Particle) (plans : List TransitionPlan) (base : Base)
    (k : Nat) :
    rulesBefore plans k = ((plans.take k).flatMap (rulesOf particles base plans)).length := by
  refine Numeric.total_eq_length fun plan _ => ?_
  simp [rulesOf]

def nextBase (c : TransitionNetwork) : Base :=
  ⟨c.transitions.length, c.mappings.length, c.rules.length⟩

/-- A list of a network. Every plan adds its part to it, behind the parts of the plans before. -/
structure Arena (particles : List Particle) (α : Type) where
  list : TransitionNetwork → List α
  part : Base → List TransitionPlan → TransitionPlan → List α
  start : Base → Nat
  before : List TransitionPlan → Nat → Nat
  list_empty : list empty = []
  list_append : ∀ c plans, list (c.append particles plans) =
    list c ++ plans.flatMap (part c.nextBase plans)
  start_nextBase : ∀ c, start c.nextBase = (list c).length
  before_eq : ∀ {plans}, Numbered plans → ∀ base k,
    before plans k = ((plans.take k).flatMap (part base plans)).length

namespace Arena

def transitions (particles : List Particle) : Arena particles LinkedTransition where
  list := TransitionNetwork.transitions
  part := fun base plans plan => [model base plans plan]
  start := Base.transitions
  before := fun plans k => (plans.take k).length
  list_empty := rfl
  list_append := fun c plans => by rw [← List.map_eq_flatMap]; rfl
  start_nextBase := fun _ => rfl
  before_eq := fun _ base k => by rw [← List.map_eq_flatMap, List.length_map]

def mappings (particles : List Particle) : Arena particles Mapping where
  list := TransitionNetwork.mappings
  part := mappingsOf
  start := Base.mappings
  before := mappingsBefore
  list_empty := rfl
  list_append := fun _ _ => rfl
  start_nextBase := fun _ => rfl
  before_eq := mappingsBefore_eq

def rules (particles : List Particle) : Arena particles LinkedRule where
  list := TransitionNetwork.rules
  part := rulesOf particles
  start := Base.rules
  before := rulesBefore
  list_empty := rfl
  list_append := fun _ _ => rfl
  start_nextBase := fun _ => rfl
  before_eq := fun {plans} _ base k => rulesBefore_eq particles plans base k

variable {α : Type} {c : TransitionNetwork}

theorem append_part (a : Arena particles α) (c : TransitionNetwork) (numbered : Numbered plans)
    {k j : Nat} {plan : TransitionPlan} {x : α} (hk : plans[k]? = some plan)
    (hx : (a.part c.nextBase plans plan)[j]? = some x) :
    (a.list (c.append particles plans))[a.start c.nextBase + a.before plans k + j]? = some x := by
  rw [a.list_append, a.before_eq numbered c.nextBase, a.start_nextBase, Nat.add_assoc,
    List.getElem?_append_right (by omega), Nat.add_sub_cancel_left]
  exact getElem?_flatMap_part hk hx

theorem append_cases (a : Arena particles α) (numbered : Numbered plans) {id : Nat} {x : α}
    (h : (a.list (c.append particles plans))[id]? = some x) : (a.list c)[id]? = some x ∨
      ∃ k plan j, plans[k]? = some plan ∧ (a.part c.nextBase plans plan)[j]? = some x ∧
        id = a.start c.nextBase + a.before plans k + j := by
  rw [a.list_append] at h
  rcases getElem?_append_cases h with before | ⟨i, hi, place⟩
  · exact Or.inl before
  · obtain ⟨k, plan, j, hk, hj, part⟩ := exists_part hi
    refine Or.inr ⟨k, plan, j, hk, hj, ?_⟩
    rw [a.before_eq numbered c.nextBase, a.start_nextBase, Nat.add_assoc]
    exact part ▸ place

theorem before_transitions {k j : Nat} {plan : TransitionPlan} {m : LinkedTransition}
    (hk : plans[k]? = some plan)
    (hj : ((transitions particles).part base plans plan)[j]? = some m) :
    m = model base plans plan ∧ (transitions particles).before plans k + j = k := by
  have inside := (List.getElem?_eq_some_iff.mp hk).1
  have short : j < 1 := (List.getElem?_eq_some_iff.mp hj).1
  obtain rfl : j = 0 := by omega
  refine ⟨(Option.some.inj hj).symm, ?_⟩
  change (plans.take k).length + 0 = k
  rw [List.length_take]
  omega

end Arena

theorem append_transition {c : TransitionNetwork} (numbered : Numbered plans) {n : Nat}
    {m : LinkedTransition} (h : (c.append particles plans).transitions[n]? = some m) :
    c.transitions[n]? = some m ∨ ∃ k plan, plans[k]? = some plan ∧
      n = c.nextBase.transitions + k ∧ m = model c.nextBase plans plan := by
  rcases (Arena.transitions particles).append_cases numbered h with
    before | ⟨k, plan, j, hk, hj, place⟩
  · exact Or.inl before
  · obtain ⟨rfl, same⟩ := Arena.before_transitions hk hj
    exact Or.inr ⟨k, plan, hk, by rw [place, Nat.add_assoc, same]; rfl, rfl⟩

/-- The plans of one kind as they lie in the arenas of a network. -/
structure Stored (particles : List Particle) (t : TransitionNetwork) (base : Base)
    (plans : List TransitionPlan) : Prop where
  transitions : ∀ (k : Nat) (plan : TransitionPlan), plans[k]? = some plan →
    t.transitions[base.transitions + k]? = some (model base plans plan)
  mappings : ∀ (k : Nat) (plan : TransitionPlan), plans[k]? = some plan →
    ∀ (j : Nat) (x : Mapping), (mappingsOf base plans plan)[j]? = some x →
      t.mappings[base.mappings + mappingsBefore plans k + j]? = some x
  rules : ∀ (k : Nat) (plan : TransitionPlan), plans[k]? = some plan →
    ∀ (j : Nat) (x : LinkedRule), (rulesOf particles base plans plan)[j]? = some x →
      t.rules[base.rules + rulesBefore plans k + j]? = some x

theorem stored_append (c : TransitionNetwork) (h : Numbered plans) :
    Stored particles (c.append particles plans) c.nextBase plans := by
  refine ⟨fun k plan hk => ?_, fun k plan hk j x hx => ?_, fun k plan hk j x hx => ?_⟩
  · have own : ((Arena.transitions particles).part c.nextBase plans plan)[0]? =
        some (model c.nextBase plans plan) := rfl
    have found := (Arena.transitions particles).append_part c h hk own
    rwa [Nat.add_assoc, (Arena.before_transitions hk own).2] at found
  · exact (Arena.mappings particles).append_part c h hk hx
  · exact (Arena.rules particles).append_part c h hk hx

theorem Stored.append {t : TransitionNetwork} (h : Stored particles t base plans)
    (others : List TransitionPlan) : Stored particles (t.append particles others) base plans :=
  ⟨fun k plan hk => getElem?_append_of_some (h.transitions k plan hk),
    fun k plan hk j x hx => getElem?_append_of_some (h.mappings k plan hk j x hx),
    fun k plan hk j x hx => getElem?_append_of_some (h.rules k plan hk j x hx)⟩

theorem mappingsOf_getElem? (base : Base) (plans : List TransitionPlan) {plan : TransitionPlan}
    (linked : plan.links.length = plan.draft.mappings.length) {j : Nat} {x : PathDraft}
    (hx : plan.draft.mappings[j]? = some x) : ∃ y, (mappingsOf base plans plan)[j]? = some y ∧
      y.modelId = mappingsBefore plans plan.modelId + j ∧
      y.transition = base.transitions + plan.modelId ∧ y.path = x.path ∧
      y.fractional = x.fractional ∧ y.movement = x.movement := by
  have hj := (List.getElem?_eq_some_iff.mp hx).1
  have both := getElem?_zip_of hx (List.getElem?_eq_getElem (linked ▸ hj : j < plan.links.length))
  refine ⟨_, by rw [mappingsOf, List.getElem?_map, List.getElem?_zipIdx, both]; rfl, ?_⟩
  simp

theorem mappingsOf_some {plan : TransitionPlan} {j : Nat} {y : Mapping}
    (hy : (mappingsOf base plans plan)[j]? = some y) : ∃ x link, plan.draft.mappings[j]? = some x ∧
      plan.links[j]? = some link ∧ y.path = x.path ∧
      y.transition = base.transitions + plan.modelId ∧
      y.inverse = base.mappings + mappingsBefore plans plan.inverse + link := by
  rw [mappingsOf, List.getElem?_map, List.getElem?_zipIdx] at hy
  obtain ⟨⟨⟨x, link⟩, k⟩, hx, rfl⟩ := Option.map_eq_some_iff.mp hy
  obtain ⟨_, both, same⟩ := Option.map_eq_some_iff.mp hx
  cases same
  obtain ⟨hx, hlink⟩ := List.getElem?_zip_eq_some.mp both
  exact ⟨x, link, hx, hlink, rfl, rfl, rfl⟩

theorem rulesOf_getElem? (particles : List Particle) (base : Base) (plans : List TransitionPlan)
    {plan : TransitionPlan} {j : Nat} {rule : Rule}
    (hr : plan.draft.rules[j]? = some rule) : ∃ y, (rulesOf particles base plans plan)[j]? =
    some y ∧
      y.transition = base.transitions + plan.modelId ∧ y.rule = rule := by
  have hj := (List.getElem?_eq_some_iff.mp hr).1
  have hlinks : j < (ruleLinks plan.draft.rules).length := ruleLinks_length _ ▸ hj
  have both := getElem?_zip_of hr (List.getElem?_eq_getElem hlinks)
  refine ⟨_, by rw [rulesOf, List.getElem?_map, both]; rfl, rfl, rfl⟩

/-- A model beside the draft that it was made of. -/
structure Modeled (t : TransitionNetwork) (n : Nat) (m : LinkedTransition)
    (d : DraftTransition) : Prop where
  found : t.transitions[n]? = some m
  kind : m.kind = d.kind
  reference : m.reference = d.reference
  mask : m.mobileMask = mobileMask d.rules
  mappings : List.Forall₂ (fun id (x : PathDraft) => ∃ y, t.mappings[id]? = some y ∧
    y.transition = n ∧ y.path = x.path ∧ y.fractional = x.fractional ∧ y.movement = x.movement)
    m.mappings d.mappings
  ascending : m.mappings.Pairwise fun a b => ∃ x y, t.mappings[a]? = some x ∧
    t.mappings[b]? = some y ∧ x.modelId < y.modelId
  rules : List.Forall₂ (fun id rule => ∃ y, t.rules[id]? = some y ∧ y.transition = n ∧
    y.rule = rule) m.rules d.rules

def pathsOf (t : TransitionNetwork) (m : LinkedTransition) : List (List CrystalVector) :=
  m.mappings.filterMap fun id => t.mappings[id]?.map (·.path)

theorem Modeled.pathsOf_eq {t : TransitionNetwork} {n : Nat} {m : LinkedTransition}
    {d : DraftTransition} (modeled : Modeled t n m d) :
    t.pathsOf m = d.mappings.map (·.path) := by
  refine filterMap_eq_of_aligned (modeled.mappings.imp ?_)
  rintro id x ⟨y, hy, _, path, _⟩
  simp [hy, path]

theorem Stored.modeled {t : TransitionNetwork} (stored : Stored particles t base plans)
    (numbered : Numbered plans) {k : Nat} {plan : TransitionPlan} (hk : plans[k]? = some plan) :
    Modeled t (base.transitions + k) (model base plans plan) plan.draft := by
  have place := numbered.place k plan hk
  have linked := numbered.linked plan (List.mem_of_getElem? hk)
  have mapping : ∀ j, j < plan.draft.mappings.length →
      ∃ x y, plan.draft.mappings[j]? = some x ∧
        t.mappings[base.mappings + mappingsBefore plans k + j]? = some y ∧
        y.modelId = mappingsBefore plans k + j ∧ y.transition = base.transitions + k ∧
        y.path = x.path ∧ y.fractional = x.fractional ∧ y.movement = x.movement := by
    intro j hj
    obtain ⟨y, hy, rest⟩ := mappingsOf_getElem? base plans linked (List.getElem?_eq_getElem hj)
    rw [place] at rest
    exact ⟨_, y, List.getElem?_eq_getElem hj, stored.mappings k plan hk j y hy, rest⟩
  refine ⟨stored.transitions k plan hk, rfl, rfl, rfl, ?_, ?_, ?_⟩
  · refine List.forall₂_iff_get.mpr ⟨by simp [model], fun j _ hj => ?_⟩
    obtain ⟨x, y, hx, hy, _, rest⟩ := mapping j hj
    rw [List.getElem?_eq_getElem hj, Option.some.injEq] at hx
    refine ⟨y, ?_, ?_⟩
    · simpa [model, place] using hy
    · simpa [hx] using rest
  · simp only [model, place]
    rw [List.pairwise_iff_getElem]
    intro i j hi hj hij
    rw [List.length_range'] at hi hj
    obtain ⟨_, x, _, hx, hxid, _⟩ := mapping i hi
    obtain ⟨_, y, _, hy, hyid, _⟩ := mapping j hj
    exact ⟨x, y, by simpa using hx, by simpa using hy, by omega⟩
  · refine List.forall₂_iff_get.mpr ⟨by simp [model], fun j _ hj => ?_⟩
    obtain ⟨y, hy, rest⟩ := rulesOf_getElem? particles base plans
      (List.getElem?_eq_getElem hj)
    rw [place] at rest
    refine ⟨y, ?_, rest⟩
    simpa [model, place] using stored.rules k plan hk j y hy

/-- A lattice path of a length between two and the limit, with a movement for every position. -/
structure Routed (e : Encoder) (limit : Nat) (y : Mapping) : Prop where
  path : e.encodeAll y.fractional = some y.path
  movement : y.movement.length = y.path.length
  low : 2 ≤ y.path.length
  high : y.path.length ≤ limit

theorem Routed.place {e : Encoder} {limit : Nat} {y : Mapping} (routed : Routed e limit y) {i : Nat}
    {here : CrystalVector} (h : y.path[i]? = some here) :
    ∃ place < e.positions.length, here.p = Int32.ofNat place := by
  obtain ⟨_, _, code⟩ := aligned_right (mapM_some_iff.mp routed.path) h
  obtain ⟨place, inside, _, same⟩ := Encoder.encode_some code
  exact ⟨place, inside, same⟩

variable [Trigonometry] {r : ReferenceData} {config : Config} {s : CrystalStructure}
  {t : TransitionNetwork}

theorem numbered_of_ofDrafts {e : Encoder} {drafts : List DraftTransition}
    (h : TransitionPlan.ofDrafts e drafts = .ok plans) : Numbered plans := by
  refine ⟨fun k plan hk => (TransitionPlan.planned_of_ofDrafts h hk).numbered, ?_⟩
  intro plan hp
  obtain ⟨k, hk⟩ := List.mem_iff_getElem?.mp hp
  exact (TransitionPlan.planned_of_ofDrafts h hk).linked

theorem build_ok (h : build r config s = .ok t) :
    ∃ kinetic kineticPlans metropolis metropolisPlans, r.checkPlaces = .ok () ∧
      List.Forall₂ (fun (k : KineticTransition) d => k.draft r config s = .ok d)
        (r.kineticTransitions.filter (·.isActive)) kinetic ∧
      TransitionPlan.ofDrafts s.encoder kinetic = .ok kineticPlans ∧
      List.Forall₂ (fun (k : MetropolisTransition) d => k.draft r s = .ok d)
        (r.metropolisTransitions.filter (·.isActive)) metropolis ∧
      TransitionPlan.ofDrafts s.encoder metropolis = .ok metropolisPlans ∧
      t = (empty.append r.particles kineticPlans).append r.particles metropolisPlans := by
  obtain ⟨⟨⟩, places, h⟩ := bind_ok_iff.mp h
  obtain ⟨kinetic, hkinetic, h⟩ := bind_ok_iff.mp h
  obtain ⟨kineticPlans, hkineticPlans, h⟩ := bind_ok_iff.mp h
  obtain ⟨metropolis, hmetropolis, h⟩ := bind_ok_iff.mp h
  obtain ⟨metropolisPlans, hmetropolisPlans, h⟩ := bind_ok_iff.mp h
  exact ⟨kinetic, kineticPlans, metropolis, metropolisPlans, places, mapM_ok_iff.mp hkinetic,
    hkineticPlans, mapM_ok_iff.mp hmetropolis, hmetropolisPlans, (pure_ok_iff.mp h).symm⟩

/-- A draft of an active authored transition. -/
inductive Authored (r : ReferenceData) (config : Config) (s : CrystalStructure) :
    DraftTransition → Prop where
  | kinetic {d : DraftTransition} (k : KineticTransition) (listed : k ∈ r.kineticTransitions)
      (active : k.isActive) (drafted : k.draft r config s = .ok d) : Authored r config s d
  | metropolis {d : DraftTransition} (k : MetropolisTransition)
      (listed : k ∈ r.metropolisTransitions) (active : k.isActive)
      (drafted : k.draft r s = .ok d) : Authored r config s d

/-- The draft of a model: an authored one, or the reversed form of one. -/
def DraftOf (r : ReferenceData) (config : Config) (s : CrystalStructure) (m : LinkedTransition)
    (d : DraftTransition) : Prop :=
  (m.isInverse = false ∧ Authored r config s d) ∨
    (m.isInverse = true ∧ ∃ d₀, Authored r config s d₀ ∧ d₀.reversed s.encoder = some d)

theorem Stored.drafted {drafts : List DraftTransition} {kind : SimulationKind}
    (stored : Stored particles t base plans)
    (authored : ∀ d ∈ drafts, Authored r config s d ∧ d.kind = kind)
    (h : TransitionPlan.ofDrafts s.encoder drafts = .ok plans) {k : Nat} {plan : TransitionPlan}
    (hk : plans[k]? = some plan) :
    Modeled t (base.transitions + k) (model base plans plan) plan.draft ∧
      DraftOf r config s (model base plans plan) plan.draft ∧
      (model base plans plan).kind = kind ∧ (model base plans plan).modelId = k := by
  have planned := TransitionPlan.planned_of_ofDrafts h hk
  refine ⟨stored.modeled (numbered_of_ofDrafts h) hk, ?_⟩
  rcases planned.origin with ⟨_, forward, hd⟩ | ⟨_, backward, d, hd, turned⟩
  · obtain ⟨hauthored, hkind⟩ := authored _ (List.mem_of_getElem? hd)
    exact ⟨Or.inl ⟨forward, hauthored⟩, hkind, planned.numbered⟩
  · obtain ⟨hauthored, hkind⟩ := authored d hd
    have same := (DraftTransition.reversed_some turned).1
    exact ⟨Or.inr ⟨backward, d, hauthored, turned⟩, same.trans hkind, planned.numbered⟩

/-- The plans of the drafts of one kind, stored in a network from `base` on. -/
structure Laid (r : ReferenceData) (config : Config) (s : CrystalStructure)
    (t : TransitionNetwork) (kind : SimulationKind) (base : Base)
    (drafts : List DraftTransition) (plans : List TransitionPlan) : Prop where
  authored : ∀ d ∈ drafts, Authored r config s d ∧ d.kind = kind
  planned : TransitionPlan.ofDrafts s.encoder drafts = .ok plans
  stored : Stored r.particles t base plans

theorem Laid.numbering {kind : SimulationKind} {drafts : List DraftTransition}
    (laid : Laid r config s t kind base drafts plans) : Numbered plans :=
  numbered_of_ofDrafts laid.planned

theorem Laid.drafted {kind : SimulationKind} {drafts : List DraftTransition}
    (laid : Laid r config s t kind base drafts plans) {k : Nat} {plan : TransitionPlan}
    (hk : plans[k]? = some plan) :
    Modeled t (base.transitions + k) (model base plans plan) plan.draft ∧
      DraftOf r config s (model base plans plan) plan.draft ∧
      (model base plans plan).kind = kind ∧ (model base plans plan).modelId = k :=
  laid.stored.drafted laid.authored laid.planned hk

theorem Laid.modeled {kind : SimulationKind} {drafts : List DraftTransition}
    (laid : Laid r config s t kind base drafts plans) {d : DraftTransition} (hd : d ∈ drafts) :
    ∃ n m, Modeled t n m d ∧ m.isInverse = false := by
  obtain ⟨k, hk⟩ := List.mem_iff_getElem?.mp hd
  have among := (List.getElem?_eq_some_iff.mp hk).1
  have hplan := List.getElem?_eq_getElem
    (Nat.lt_of_lt_of_le among (TransitionPlan.length_le_of_ofDrafts laid.planned))
  have planned := TransitionPlan.planned_of_ofDrafts laid.planned hplan
  rcases planned.origin with ⟨_, forward, same⟩ | ⟨late, _, _⟩
  · rw [hk, Option.some.injEq] at same
    exact ⟨_, _, same ▸ (laid.drafted hplan).1, forward⟩
  · omega

theorem laid_of_build (h : build r config s = .ok t) :
    ∃ kinetic kineticPlans metropolis metropolisPlans,
      t = (empty.append r.particles kineticPlans).append r.particles metropolisPlans ∧
      Laid r config s t .kinetic empty.nextBase kinetic kineticPlans ∧
      Laid r config s t .metropolis (empty.append r.particles kineticPlans).nextBase metropolis
        metropolisPlans ∧
      List.Forall₂ (fun (k : KineticTransition) d => k.draft r config s = .ok d)
        (r.kineticTransitions.filter (·.isActive)) kinetic ∧
      List.Forall₂ (fun (k : MetropolisTransition) d => k.draft r s = .ok d)
        (r.metropolisTransitions.filter (·.isActive)) metropolis := by
  obtain ⟨kinetic, kineticPlans, metropolis, metropolisPlans, _, hkinetic, hkineticPlans,
    hmetropolis, hmetropolisPlans, rfl⟩ := build_ok h
  refine ⟨kinetic, kineticPlans, metropolis, metropolisPlans, rfl, ⟨?_, hkineticPlans, ?_⟩,
    ⟨?_, hmetropolisPlans, ?_⟩, hkinetic, hmetropolis⟩
  · intro d hd
    obtain ⟨x, hx, drafted⟩ := aligned_mem_right hkinetic hd
    obtain ⟨listed, active⟩ := List.mem_filter.mp hx
    exact ⟨.kinetic x listed active drafted, (KineticTransition.draft_ok drafted).1⟩
  · exact (stored_append empty (numbered_of_ofDrafts hkineticPlans)).append _
  · intro d hd
    obtain ⟨x, hx, drafted⟩ := aligned_mem_right hmetropolis hd
    obtain ⟨listed, active⟩ := List.mem_filter.mp hx
    exact ⟨.metropolis x listed active drafted, (MetropolisTransition.draft_ok drafted).1⟩
  · exact stored_append _ (numbered_of_ofDrafts hmetropolisPlans)

theorem modeled_of_authored (h : build r config s = .ok t) {d : DraftTransition}
    (authored : Authored r config s d) : ∃ n m, Modeled t n m d ∧ m.isInverse = false := by
  obtain ⟨_, _, _, _, _, before, behind, hkinetic, hmetropolis⟩ := laid_of_build h
  cases authored with
  | kinetic k listed active drafted =>
    obtain ⟨d', hd', drafted'⟩ := aligned_mem_left hkinetic (List.mem_filter.mpr ⟨listed, active⟩)
    rw [drafted, Except.ok.injEq] at drafted'
    exact before.modeled (drafted' ▸ hd')
  | metropolis k listed active drafted =>
    obtain ⟨d', hd', drafted'⟩ :=
      aligned_mem_left hmetropolis (List.mem_filter.mpr ⟨listed, active⟩)
    rw [drafted, Except.ok.injEq] at drafted'
    exact behind.modeled (drafted' ▸ hd')

/-- What a list of a network holds is in the part of one of the plans. -/
theorem Arena.laid {α : Type} (a : Arena r.particles α) (h : build r config s = .ok t) {id : Nat}
    {x : α} (hx : (a.list t)[id]? = some x) : ∃ kind base drafts plans k plan j,
      Laid r config s t kind base drafts plans ∧ plans[k]? = some plan ∧
      (a.part base plans plan)[j]? = some x ∧ id = a.start base + a.before plans k + j := by
  obtain ⟨kinetic, kineticPlans, metropolis, metropolisPlans, rfl, first, second, _⟩ :=
    laid_of_build h
  rcases a.append_cases second.numbering hx with before | ⟨k, plan, j, found⟩
  · rcases a.append_cases first.numbering before with nothing | ⟨k, plan, j, found⟩
    · rw [a.list_empty] at nothing
      cases nothing
    · exact ⟨_, _, _, _, k, plan, j, first, found⟩
  · exact ⟨_, _, _, _, k, plan, j, second, found⟩

theorem laid_transition (h : build r config s = .ok t) {n : Nat} {m : LinkedTransition}
    (hm : t.transitions[n]? = some m) : ∃ kind base drafts plans k plan,
      Laid r config s t kind base drafts plans ∧ plans[k]? = some plan ∧
      n = base.transitions + k ∧ m = model base plans plan := by
  obtain ⟨kind, base, drafts, plans, k, plan, j, laid, hk, hj, place⟩ :=
    (Arena.transitions r.particles).laid h hm
  obtain ⟨rfl, same⟩ := Arena.before_transitions hk hj
  refine ⟨kind, base, drafts, plans, k, plan, laid, hk, ?_, rfl⟩
  rw [place, Nat.add_assoc, same]
  rfl

theorem laid_mapping (h : build r config s = .ok t) {id : Nat} {y : Mapping}
    (hy : t.mappings[id]? = some y) : ∃ kind base drafts plans k plan j,
      Laid r config s t kind base drafts plans ∧ plans[k]? = some plan ∧
      (mappingsOf base plans plan)[j]? = some y ∧
      id = base.mappings + mappingsBefore plans k + j :=
  (Arena.mappings r.particles).laid h hy

theorem laid_rule (h : build r config s = .ok t) {id : Nat} {x : LinkedRule}
    (hx : t.rules[id]? = some x) : ∃ kind base drafts plans k plan j,
      Laid r config s t kind base drafts plans ∧ plans[k]? = some plan ∧
      (rulesOf r.particles base plans plan)[j]? = some x ∧
      id = base.rules + rulesBefore plans k + j :=
  (Arena.rules r.particles).laid h hx

/-- The numbers of a network: kinetic models come before the split, Metropolis models from there
on, both in the order of their model ids. -/
structure Arranged (r : ReferenceData) (config : Config) (s : CrystalStructure)
    (t : TransitionNetwork) (split : Nat) : Prop where
  modeled : ∀ (n : Nat) (m : LinkedTransition), t.transitions[n]? = some m →
    ∃ d, Modeled t n m d ∧ DraftOf r config s m d
  number : ∀ (n : Nat) (m : LinkedTransition), t.transitions[n]? = some m →
    (m.kind = .kinetic ∧ n = m.modelId) ∨ (m.kind = .metropolis ∧ n = split + m.modelId)
  authored : ∀ k ∈ r.metropolisTransitions, k.isActive →
    ∃ n m d, Modeled t n m d ∧ k.draft r s = .ok d ∧ m.isInverse = false

theorem arranged_of_build (h : build r config s = .ok t) :
    ∃ split, Arranged r config s t split := by
  obtain ⟨kinetic, kineticPlans, metropolis, metropolisPlans, same, before, behind, _,
    hmetropolis⟩ := laid_of_build h
  refine ⟨kineticPlans.length, ?_, ?_, ?_⟩
  · intro n m hm
    obtain ⟨_, _, _, _, k, plan, laid, hk, rfl, rfl⟩ := laid_transition h hm
    obtain ⟨modeled, origin, _⟩ := laid.drafted hk
    exact ⟨_, modeled, origin⟩
  · intro n m hm
    rw [same] at hm
    rcases append_transition behind.numbering hm with first | ⟨k, plan, hk, rfl, rfl⟩
    · rcases append_transition before.numbering first with nothing | ⟨k, plan, hk, rfl, rfl⟩
      · cases nothing
      · obtain ⟨_, _, kind, number⟩ := before.drafted hk
        exact Or.inl ⟨kind, by rw [number]; exact Nat.zero_add k⟩
    · obtain ⟨_, _, kind, number⟩ := behind.drafted hk
      exact Or.inr ⟨kind, by rw [number]; simp [nextBase, append, empty]⟩
  · intro k listed active
    obtain ⟨d, _, drafted⟩ := aligned_mem_left hmetropolis (List.mem_filter.mpr ⟨listed, active⟩)
    obtain ⟨n, m, modeled, forward⟩ :=
      modeled_of_authored h (.metropolis k listed active drafted)
    exact ⟨n, m, d, modeled, drafted, forward⟩

theorem Authored.sound {d : DraftTransition} (structured : CrystalStructure.Sound r s)
    (h : Authored r config s d) : d.Sound s.encoder (max 2 config.maxPathLength) := by
  cases h with
  | kinetic k _ _ drafted =>
    intro x hx
    obtain ⟨encoded, low, high⟩ := (KineticTransition.draft_ok drafted).2.2.2 x hx
    exact ⟨encoded, low, by omega⟩
  | metropolis k _ _ drafted =>
    intro x hx
    obtain ⟨encoded, low, high⟩ := MetropolisTransition.draft_sound structured drafted x hx
    exact ⟨encoded, low, by omega⟩

theorem DraftOf.sound {m : LinkedTransition} {d : DraftTransition}
    (structured : CrystalStructure.Sound r s) (h : DraftOf r config s m d) :
    d.Sound s.encoder (max 2 config.maxPathLength) := by
  rcases h with ⟨_, authored⟩ | ⟨_, d₀, authored, turned⟩
  · exact authored.sound structured
  · exact (authored.sound structured).reversed turned

theorem Arranged.routed {split : Nat} (arranged : Arranged r config s t split)
    (structured : CrystalStructure.Sound r s) {n id : Nat} {m : LinkedTransition} {y : Mapping}
    (hm : t.transitions[n]? = some m) (hid : id ∈ m.mappings) (hy : t.mappings[id]? = some y) :
    Routed s.encoder (max 2 config.maxPathLength) y := by
  obtain ⟨d, modeled, drafted⟩ := arranged.modeled n m hm
  obtain ⟨x, hx, z, hz, _, path, fractional, movement⟩ := aligned_mem_left modeled.mappings hid
  rw [hy, Option.some.injEq] at hz
  subst hz
  obtain ⟨encoded, low, high⟩ := drafted.sound structured x hx
  refine ⟨by rw [path, fractional, encoded.path], ?_, by rw [path]; exact low,
    by rw [path]; exact high⟩
  rw [movement, path, encoded.movement, encoded.length]

end TransitionNetwork

end CrystalModel
