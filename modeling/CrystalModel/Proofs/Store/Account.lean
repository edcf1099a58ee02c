import CrystalModel.Proofs.Store.History

/-! # Accounts of changed objects

Records account for two states of the data when every object underwent what is recorded under its
domain and index, one action after the other. An object without a record is the same object. -/
namespace CrystalModel

def ResolutionReport.records (report : ResolutionReport) : List Amendment :=
  report.resolved.flatMap (·.2)

/-- What the records say of one object. -/
def actionsOn (records : List Amendment) (domain : Domain) (index : Nat) : List Action :=
  (records.filter fun a => a.domain = domain ∧ a.index = index).map (·.action)

section Objects

variable {α : Type}

/-- One object after the other under a list of actions. -/
inductive Undergone (amended : Action → α → α → Prop) : List Action → α → α → Prop where
  | nothing (x : α) : Undergone amended [] x x
  | action {a : Action} {as : List Action} {x y z : α} (first : amended a x y)
      (rest : Undergone amended as y z) : Undergone amended (a :: as) x z

/-- The objects of one domain before and after. None comes, goes or changes its index, and each
underwent what is recorded of it. -/
def Accounted (records : List Amendment) (domain : Domain) (index : α → Nat)
    (amended : Action → α → α → Prop) : List α → List α → Prop :=
  List.Forall₂ fun x y =>
    index y = index x ∧ Undergone amended (actionsOn records domain (index x)) x y

end Objects

inductive Site.Amended : Action → Site → Site → Prop where
  | retired (s : Site) : Amended .deprecated s s.retired

/-- A set that lost one of its particles. -/
inductive ParticleSet.Amended : Action → ParticleSet → ParticleSet → Prop where
  | without (s : ParticleSet) (particle : Nat) (held : particle ∈ s.particles) :
      Amended (.removedParticle particle) s
        { s with particles := s.particles.filter (· != particle) }

/-- An interaction that was retired, or lost the energies of a particle. -/
inductive PairInteraction.Amended : Action → PairInteraction → PairInteraction → Prop where
  | retired (i : PairInteraction) : Amended .deprecated i i.retired
  | without (i : PairInteraction) (particle : Nat) (held : i.energies.any (·.mentions particle)) :
      Amended (.droppedEnergies (i.energies.countP (·.mentions particle))) i
        { i with energies := i.energies.filter (!·.mentions particle) }

inductive GroupInteraction.Amended : Action → GroupInteraction → GroupInteraction → Prop where
  | retired (i : GroupInteraction) : Amended .deprecated i i.retired
  | without (i : GroupInteraction) (particle : Nat) (held : i.energies.any (·.mentions particle)) :
      Amended (.droppedEnergies (i.energies.countP (·.mentions particle))) i
        { i with energies := i.energies.filter (!·.mentions particle) }

inductive MetropolisTransition.Amended :
    Action → MetropolisTransition → MetropolisTransition → Prop where
  | retired (t : MetropolisTransition) : Amended .deprecated t t.retired

namespace ReferenceData

/-- Two states of the data that differ by what is recorded, and in nothing else. -/
structure AccountedFor (records : List Amendment) (r r' : ReferenceData) : Prop where
  cell : r'.cell = r.cell
  spaceGroup : r'.spaceGroup = r.spaceGroup
  particles : r'.particles = r.particles
  particleSets :
    Accounted records .particleSet (·.index) ParticleSet.Amended r.particleSets r'.particleSets
  sites : Accounted records .site (·.index) Site.Amended r.sites r'.sites
  pairInteractions : Accounted records .pairInteraction (·.index) PairInteraction.Amended
    r.pairInteractions r'.pairInteractions
  groupInteractions : Accounted records .groupInteraction (·.index) GroupInteraction.Amended
    r.groupInteractions r'.groupInteractions
  exchangePairs : r'.exchangePairs = r.exchangePairs
  exchangeGroups : r'.exchangeGroups = r.exchangeGroups
  abstractTransitions : r'.abstractTransitions = r.abstractTransitions
  kineticTransitions : r'.kineticTransitions = r.kineticTransitions
  metropolisTransitions : Accounted records .metropolisTransition (·.index)
    MetropolisTransition.Amended r.metropolisTransitions r'.metropolisTransitions
  simulations : r'.simulations = r.simulations

end ReferenceData

section Actions

variable {domain other : Domain} {index : Nat}

@[simp] theorem actionsOn_append (records later : List Amendment) :
    actionsOn (records ++ later) domain index =
      actionsOn records domain index ++ actionsOn later domain index := by
  rw [actionsOn, List.filter_append, List.map_append]
  rfl

@[simp] theorem actionsOn_nil : actionsOn [] domain index = [] := rfl

theorem actionsOn_none {records : List Amendment}
    (unnamed : ∀ a ∈ records, ¬(a.domain = domain ∧ a.index = index)) :
    actionsOn records domain index = [] := by
  have none_left : records.filter (fun a => a.domain = domain ∧ a.index = index) = [] := by
    rw [List.filter_eq_nil_iff]
    intro a ha
    simpa using unnamed a ha
  rw [actionsOn, none_left, List.map_nil]

variable {α : Type} {number : α → Nat} {act : α → Option Action}

def recordsOf (domain : Domain) (number : α → Nat) (act : α → Option Action) (xs : List α) :
    List Amendment :=
  xs.filterMap fun x => (act x).map fun action => ⟨domain, number x, action⟩

theorem mem_recordsOf {xs : List α} {a : Amendment} (h : a ∈ recordsOf domain number act xs) :
    ∃ x ∈ xs, a.domain = domain ∧ a.index = number x ∧ act x = some a.action := by
  obtain ⟨x, hx, made⟩ := List.mem_filterMap.mp h
  obtain ⟨action, hact, rfl⟩ := Option.map_eq_some_iff.mp made
  exact ⟨x, hx, rfl, rfl, hact⟩

@[simp] theorem actionsOn_recordsOf_other {xs : List α} (apart : other ≠ domain) :
    actionsOn (recordsOf domain number act xs) other index = [] := by
  refine actionsOn_none fun a ha => ?_
  obtain ⟨_, _, same, _⟩ := mem_recordsOf ha
  rintro ⟨named, _⟩
  exact apart (named.symm.trans same)

/-- Of objects that are told apart by their numbers each has its own record only. -/
theorem actionsOn_recordsOf {xs : List α} (distinct : (xs.map number).Nodup) {x : α}
    (hx : x ∈ xs) : actionsOn (recordsOf domain number act xs) domain (number x) =
      (act x).toList := by
  induction xs with
  | nil => cases hx
  | cons y ys ih =>
    rw [List.map_cons, List.nodup_cons] at distinct
    obtain ⟨alone, distinct⟩ := distinct
    have split : recordsOf domain number act (y :: ys) =
        recordsOf domain number act [y] ++ recordsOf domain number act ys := by
      rw [recordsOf, ← List.singleton_append, List.filterMap_append]
      rfl
    rw [split, actionsOn_append]
    rcases List.mem_cons.mp hx with rfl | later
    · have rest : actionsOn (recordsOf domain number act ys) domain (number x) = [] := by
        refine actionsOn_none fun a ha => ?_
        obtain ⟨z, hz, _, same, _⟩ := mem_recordsOf ha
        rintro ⟨_, named⟩
        exact alone (List.mem_map.mpr ⟨z, hz, same.symm.trans named⟩)
      rw [rest, List.append_nil]
      cases hact : act x <;> simp [recordsOf, actionsOn, hact]
    · have first : actionsOn (recordsOf domain number act [y]) domain (number x) = [] := by
        refine actionsOn_none fun a ha => ?_
        obtain ⟨z, hz, _, same, _⟩ := mem_recordsOf ha
        obtain rfl := List.mem_singleton.mp hz
        rintro ⟨_, named⟩
        exact alone (List.mem_map.mpr ⟨x, later, named.symm.trans same⟩)
      rw [first, List.nil_append, ih distinct later]

end Actions

section Objects

variable {α : Type} {amended : Action → α → α → Prop} {records later : List Amendment}
  {domain : Domain} {index : α → Nat} {xs ys zs : List α}

theorem Undergone.append {as bs : List Action} {x y z : α} (h : Undergone amended as x y)
    (k : Undergone amended bs y z) : Undergone amended (as ++ bs) x z := by
  induction h with
  | nothing x => exact k
  | action first _ ih => exact .action first (ih k)

theorem Undergone.ite {p : Prop} [Decidable p] {action : Action} {x y : α}
    (changed : amended action x y) :
    Undergone amended (if p then some action else none).toList x (if p then y else x) := by
  by_cases h : p
  · rw [if_pos h, if_pos h]
    exact .action changed (.nothing y)
  · rw [if_neg h, if_neg h]
    exact .nothing x

namespace Accounted

theorem same (unnamed : ∀ i, actionsOn records domain i = []) (xs : List α) :
    Accounted records domain index amended xs xs := by
  refine List.forall₂_same.mpr fun x _ => ⟨rfl, ?_⟩
  rw [unnamed]
  exact .nothing x

theorem trans (h : Accounted records domain index amended xs ys)
    (k : Accounted later domain index amended ys zs) :
    Accounted (records ++ later) domain index amended xs zs := by
  induction h generalizing zs with
  | nil =>
    cases k
    exact .nil
  | cons first _ ih =>
    cases k with
    | cons second rest =>
      refine .cons ⟨second.1.trans first.1, ?_⟩ (ih rest)
      rw [actionsOn_append, ← first.1]
      exact Undergone.append (first.1 ▸ first.2) second.2

theorem numbers (h : Accounted records domain index amended xs ys) :
    ys.map index = xs.map index := by
  induction h with
  | nil => rfl
  | cons first _ ih => rw [List.map_cons, List.map_cons, first.1, ih]

theorem numbered (h : Accounted records domain index amended xs ys)
    (placed : xs.map index = List.range xs.length) : ys.map index = List.range ys.length := by
  rw [h.numbers, placed, List.Forall₂.length_eq h]

theorem map {f : α → α} (act : α → Option Action) (keep : ∀ x, index (f x) = index x)
    (each : ∀ x, Undergone amended (act x).toList x (f x))
    (recorded : ∀ x ∈ xs, actionsOn records domain (index x) = (act x).toList) :
    Accounted records domain index amended xs (xs.map f) := by
  refine List.forall₂_map_right_iff.mpr (List.forall₂_same.mpr fun x hx => ⟨keep x, ?_⟩)
  rw [recorded x hx]
  exact each x

theorem modify {f : α → α} {action : Action} {k : Nat} (keep : ∀ x, index (f x) = index x)
    (changed : ∀ x, amended action x (f x)) (placed : xs.map index = List.range xs.length) :
    Accounted [⟨domain, k, action⟩] domain index amended xs (xs.modify k f) := by
  have by_index : xs.modify k f = xs.map fun x => if k = index x then f x else x := by
    refine List.ext_getElem? fun i => ?_
    rw [List.getElem?_modify, List.getElem?_map]
    refine Option.map_congr fun x hx => ?_
    rw [place_of_numbered placed hx]
  rw [by_index]
  refine map (fun x => if k = index x then some action else none) (fun x => ?_)
    (fun x => .ite (changed x)) fun x _ => ?_
  · by_cases here : k = index x
    · rw [if_pos here, keep]
    · rw [if_neg here]
  · by_cases here : k = index x
    · simp [actionsOn, here]
    · simp [actionsOn, here]

theorem modify_at {f : α → α} {action : Action} {k : Nat} {other : Domain}
    (keep : ∀ x, index (f x) = index x) (changed : ∀ x, amended action x (f x))
    (placed : xs.map index = List.range xs.length) :
    Accounted [⟨other, k, action⟩] domain index amended xs
      (if other = domain then xs.modify k f else xs) := by
  by_cases here : other = domain
  · rw [if_pos here, here]
    exact modify keep changed placed
  · rw [if_neg here]
    exact same (fun i => by simp [actionsOn, here]) xs

/-- Objects that are changed one by one, where the records of their domain are made for each of
them that changes. -/
theorem of_recordsOf {f : α → α} {act : α → Option Action}
    (placed : xs.map index = List.range xs.length) (keep : ∀ x, index (f x) = index x)
    (each : ∀ x, Undergone amended (act x).toList x (f x))
    (own : ∀ i, actionsOn records domain i = actionsOn (recordsOf domain index act xs) domain i) :
    Accounted records domain index amended xs (xs.map f) := by
  have distinct : (xs.map index).Nodup := placed ▸ List.nodup_range
  refine .map act keep each fun x hx => ?_
  rw [own, actionsOn_recordsOf distinct hx]

end Accounted

end Objects

/-- The data with the object of a domain retired that lies at `index`. -/
def ReferenceData.retire (r : ReferenceData) (domain : Domain) (index : Nat) : ReferenceData :=
  { r with
    sites := if domain = .site then r.sites.modify index Site.retired else r.sites
    pairInteractions := if domain = .pairInteraction
      then r.pairInteractions.modify index PairInteraction.retired else r.pairInteractions
    groupInteractions := if domain = .groupInteraction
      then r.groupInteractions.modify index GroupInteraction.retired else r.groupInteractions
    metropolisTransitions := if domain = .metropolisTransition
      then r.metropolisTransitions.modify index MetropolisTransition.retired
      else r.metropolisTransitions }

namespace ReferenceData.AccountedFor

variable {r r' r'' : ReferenceData} {records later : List Amendment}

theorem refl (r : ReferenceData) : r.AccountedFor [] r where
  cell := rfl
  spaceGroup := rfl
  particles := rfl
  particleSets := .same (by simp) _
  sites := .same (by simp) _
  pairInteractions := .same (by simp) _
  groupInteractions := .same (by simp) _
  exchangePairs := rfl
  exchangeGroups := rfl
  abstractTransitions := rfl
  kineticTransitions := rfl
  metropolisTransitions := .same (by simp) _
  simulations := rfl

theorem retire (placed : r.Numbered) {domain : Domain} (apart : domain ≠ .particleSet)
    (index : Nat) : r.AccountedFor [⟨domain, index, .deprecated⟩] (r.retire domain index) :=
  { refl r with
    particleSets := .same (fun i => by simp [actionsOn, apart]) _
    sites := .modify_at (fun _ => rfl) .retired placed.sites
    pairInteractions := .modify_at (fun _ => rfl) .retired placed.pairInteractions
    groupInteractions := .modify_at (fun _ => rfl) .retired placed.groupInteractions
    metropolisTransitions := .modify_at (fun _ => rfl) .retired placed.metropolisTransitions }

theorem trans (h : r.AccountedFor records r') (k : r'.AccountedFor later r'') :
    r.AccountedFor (records ++ later) r'' where
  cell := k.cell.trans h.cell
  spaceGroup := k.spaceGroup.trans h.spaceGroup
  particles := k.particles.trans h.particles
  particleSets := h.particleSets.trans k.particleSets
  sites := h.sites.trans k.sites
  pairInteractions := h.pairInteractions.trans k.pairInteractions
  groupInteractions := h.groupInteractions.trans k.groupInteractions
  exchangePairs := k.exchangePairs.trans h.exchangePairs
  exchangeGroups := k.exchangeGroups.trans h.exchangeGroups
  abstractTransitions := k.abstractTransitions.trans h.abstractTransitions
  kineticTransitions := k.kineticTransitions.trans h.kineticTransitions
  metropolisTransitions := h.metropolisTransitions.trans k.metropolisTransitions
  simulations := k.simulations.trans h.simulations

theorem numbered (h : r.AccountedFor records r') (placed : r.Numbered) : r'.Numbered where
  particles := h.particles ▸ placed.particles
  particleSets := h.particleSets.numbered placed.particleSets
  sites := h.sites.numbered placed.sites
  pairInteractions := h.pairInteractions.numbered placed.pairInteractions
  groupInteractions := h.groupInteractions.numbered placed.groupInteractions
  exchangePairs := h.exchangePairs ▸ placed.exchangePairs
  exchangeGroups := h.exchangeGroups ▸ placed.exchangeGroups
  abstractTransitions := h.abstractTransitions ▸ placed.abstractTransitions
  kineticTransitions := h.kineticTransitions ▸ placed.kineticTransitions
  metropolisTransitions := h.metropolisTransitions.numbered placed.metropolisTransitions
  simulations := h.simulations ▸ placed.simulations

end ReferenceData.AccountedFor

end CrystalModel
