import CrystalModel.Proofs.Reference.Validation
import CrystalModel.Proofs.Store.Change

/-! # The history of a store

Whatever changes a store is given, its data stay fit for a build, and every object stays where it
is. An object may be retired and stripped of particles, but it never comes back to life. -/
namespace CrystalModel

section Objects

variable {α β γ : Type} {fixed : α → β} {state : α → Lifecycle} {parts : α → List γ}

/-- One object at two times. What is `fixed` about it never changes, what is deprecated stays so,
and of its `parts` some may be gone. -/
structure Becomes (fixed : α → β) (state : α → Lifecycle) (parts : α → List γ) (x y : α) :
    Prop where
  fixed : fixed y = fixed x
  state : state x = .deprecated → state y = .deprecated
  parts : (parts y).Sublist (parts x)

theorem Becomes.refl (x : α) : Becomes fixed state parts x x := ⟨rfl, id, .refl _⟩

theorem Becomes.trans {x y z : α} (h : Becomes fixed state parts x y)
    (k : Becomes fixed state parts y z) : Becomes fixed state parts x z :=
  ⟨k.fixed.trans h.fixed, k.state ∘ h.state, k.parts.trans h.parts⟩

/-- Every object of the first list is found at its place in the second one. -/
def Kept (R : α → α → Prop) (xs ys : List α) : Prop :=
  ∀ (k : Nat) (x : α), xs[k]? = some x → ∃ y, ys[k]? = some y ∧ R x y

namespace Kept

variable {R : α → α → Prop} {xs ys zs : List α}

theorem refl (same : ∀ x, R x x) (xs : List α) : Kept R xs xs := fun _ x hx => ⟨x, hx, same x⟩

theorem trans (join : ∀ {x y z}, R x y → R y z → R x z) (h : Kept R xs ys) (k : Kept R ys zs) :
    Kept R xs zs := by
  intro i x hx
  obtain ⟨y, hy, hxy⟩ := h i x hx
  obtain ⟨z, hz, hyz⟩ := k i y hy
  exact ⟨z, hz, join hxy hyz⟩

theorem append (same : ∀ x, R x x) (xs : List α) (x : α) : Kept R xs (xs ++ [x]) :=
  fun _ y hy => ⟨y, getElem?_append_of_some hy, same y⟩

theorem map {f : α → α} (each : ∀ x, R x (f x)) (xs : List α) : Kept R xs (xs.map f) := by
  intro k x hx
  refine ⟨f x, ?_, each x⟩
  rw [List.getElem?_map, hx]
  rfl

theorem modify {f : α → α} (same : ∀ x, R x x) (each : ∀ x, R x (f x)) (xs : List α) (k : Nat) :
    Kept R xs (xs.modify k f) := by
  intro i x hx
  rw [List.getElem?_modify, hx]
  by_cases here : k = i
  · exact ⟨f x, by simp [here], each x⟩
  · exact ⟨x, by simp [here], same x⟩

end Kept

end Objects

abbrev Particle.Becomes : Particle → Particle → Prop :=
  CrystalModel.Becomes (fun p => { p with state := .active }) (·.state) fun _ => ([] : List Nat)

abbrev ParticleSet.Becomes : ParticleSet → ParticleSet → Prop :=
  CrystalModel.Becomes (fun s => { s with particles := [] }) (·.state) (·.particles)

abbrev Site.Becomes : Site → Site → Prop :=
  CrystalModel.Becomes (fun s => { s with state := .active }) (·.state) fun _ => ([] : List Nat)

abbrev PairInteraction.Becomes : PairInteraction → PairInteraction → Prop :=
  CrystalModel.Becomes (fun i => { i with energies := [], state := .active }) (·.state) (·.energies)

abbrev GroupInteraction.Becomes : GroupInteraction → GroupInteraction → Prop :=
  CrystalModel.Becomes (fun i => { i with energies := [], state := .active }) (·.state) (·.energies)

abbrev MetropolisTransition.Becomes : MetropolisTransition → MetropolisTransition → Prop :=
  CrystalModel.Becomes (fun t => { t with state := .active }) (·.state) fun _ => ([] : List Nat)

namespace ReferenceData

/-- Later data hold every object of the earlier ones, under its index and at its place. -/
structure Retains (r r' : ReferenceData) : Prop where
  cell : r'.cell = r.cell
  particles : Kept Particle.Becomes r.particles r'.particles
  particleSets : Kept ParticleSet.Becomes r.particleSets r'.particleSets
  sites : Kept Site.Becomes r.sites r'.sites
  pairInteractions : Kept PairInteraction.Becomes r.pairInteractions r'.pairInteractions
  groupInteractions : Kept GroupInteraction.Becomes r.groupInteractions r'.groupInteractions
  exchangePairs : r'.exchangePairs = r.exchangePairs
  exchangeGroups : r'.exchangeGroups = r.exchangeGroups
  abstractTransitions : r'.abstractTransitions = r.abstractTransitions
  kineticTransitions : Kept Eq r.kineticTransitions r'.kineticTransitions
  metropolisTransitions :
    Kept MetropolisTransition.Becomes r.metropolisTransitions r'.metropolisTransitions
  simulations : Kept Eq r.simulations r'.simulations

theorem Retains.refl (r : ReferenceData) : r.Retains r where
  cell := rfl
  particles := .refl .refl _
  particleSets := .refl .refl _
  sites := .refl .refl _
  pairInteractions := .refl .refl _
  groupInteractions := .refl .refl _
  exchangePairs := rfl
  exchangeGroups := rfl
  abstractTransitions := rfl
  kineticTransitions := .refl Eq.refl _
  metropolisTransitions := .refl .refl _
  simulations := .refl Eq.refl _

theorem Retains.trans {a b c : ReferenceData} (h : a.Retains b) (k : b.Retains c) :
    a.Retains c where
  cell := k.cell.trans h.cell
  particles := h.particles.trans .trans k.particles
  particleSets := h.particleSets.trans .trans k.particleSets
  sites := h.sites.trans .trans k.sites
  pairInteractions := h.pairInteractions.trans .trans k.pairInteractions
  groupInteractions := h.groupInteractions.trans .trans k.groupInteractions
  exchangePairs := k.exchangePairs.trans h.exchangePairs
  exchangeGroups := k.exchangeGroups.trans h.exchangeGroups
  abstractTransitions := k.abstractTransitions.trans h.abstractTransitions
  kineticTransitions := h.kineticTransitions.trans .trans k.kineticTransitions
  metropolisTransitions := h.metropolisTransitions.trans .trans k.metropolisTransitions
  simulations := h.simulations.trans .trans k.simulations

end ReferenceData

section Steps

variable {r r' : ReferenceData}

theorem Particle.becomes_retired (p : Particle) : p.Becomes p.retired :=
  ⟨rfl, fun _ => rfl, .refl _⟩

theorem Site.becomes_retired (s : Site) : s.Becomes s.retired := ⟨rfl, fun _ => rfl, .refl _⟩

theorem PairInteraction.becomes_retired (i : PairInteraction) : i.Becomes i.retired :=
  ⟨rfl, fun _ => rfl, .refl _⟩

theorem GroupInteraction.becomes_retired (i : GroupInteraction) : i.Becomes i.retired :=
  ⟨rfl, fun _ => rfl, .refl _⟩

theorem MetropolisTransition.becomes_retired (t : MetropolisTransition) : t.Becomes t.retired :=
  ⟨rfl, fun _ => rfl, .refl _⟩

theorem ite_becomes {α : Type} {R : α → α → Prop} (same : ∀ x, R x x) (p : Bool) {x y : α}
    (h : R x y) : R x (if p then y else x) := by
  cases p
  · exact same x
  · exact h

/-- Settling a conflict retires objects and strips them, and touches nothing else. -/
theorem Conflict.retains_settle (c : Conflict) (r : ReferenceData) : r.Retains (c.settle r) := by
  cases c with
  | equivalentSites kept duplicate =>
    rw [settle_equivalentSites]
    exact { ReferenceData.Retains.refl r with
      sites := .modify .refl Site.becomes_retired _ _ }
  | removedParticle particle =>
    rw [settle_removedParticle]
    exact { ReferenceData.Retains.refl r with
      particleSets := .map (fun s => ⟨rfl, id, List.filter_sublist⟩) _
      pairInteractions := .map (fun i => ⟨rfl, id, List.filter_sublist⟩) _
      groupInteractions := .map (fun i => ⟨rfl, id, List.filter_sublist⟩) _ }
  | removedSite site =>
    rw [settle_removedSite]
    exact { ReferenceData.Retains.refl r with
      pairInteractions := .map (fun i => ite_becomes .refl _ i.becomes_retired) _
      groupInteractions := .map (fun i => ite_becomes .refl _ i.becomes_retired) _
      metropolisTransitions := .map (fun t => ite_becomes .refl _ t.becomes_retired) _ }
  | duplicatePair existing newcomer =>
    rw [settle_duplicatePair]
    exact { ReferenceData.Retains.refl r with
      pairInteractions := .modify .refl PairInteraction.becomes_retired _ _ }
  | duplicateGroup existing newcomer =>
    rw [settle_duplicateGroup]
    exact { ReferenceData.Retains.refl r with
      groupInteractions := .modify .refl GroupInteraction.becomes_retired _ _ }
  | ringGeometry transition =>
    rw [settle_ringGeometry]
    exact .refl r

theorem DataChange.Edits.retains {change : DataChange} (h : change.Edits r r') :
    r.Retains r' := by
  cases change with
  | addParticle p =>
    obtain ⟨_, _, rfl⟩ := h
    exact { ReferenceData.Retains.refl r with particles := .append .refl _ _ }
  | removeParticle index =>
    obtain ⟨_, rfl⟩ := h
    exact { ReferenceData.Retains.refl r with
      particles := .modify .refl Particle.becomes_retired _ _ }
  | addSite site =>
    obtain ⟨_, rfl⟩ := h
    exact { ReferenceData.Retains.refl r with sites := .append .refl _ _ }
  | removeSite index =>
    obtain ⟨_, rfl⟩ := h
    exact { ReferenceData.Retains.refl r with
      sites := .modify .refl Site.becomes_retired _ _ }
  | setSpaceGroup entry =>
    obtain rfl := h
    exact { ReferenceData.Retains.refl r with }
  | addPair i =>
    obtain ⟨_, rfl⟩ := h
    exact { ReferenceData.Retains.refl r with pairInteractions := .append .refl _ _ }
  | addGroup i =>
    obtain ⟨_, rfl⟩ := h
    exact { ReferenceData.Retains.refl r with groupInteractions := .append .refl _ _ }
  | addKinetic t =>
    obtain ⟨_, rfl⟩ := h
    exact { ReferenceData.Retains.refl r with kineticTransitions := .append Eq.refl _ _ }
  | addSimulation s =>
    obtain ⟨_, rfl⟩ := h
    exact { ReferenceData.Retains.refl r with simulations := .append Eq.refl _ _ }

end Steps

namespace ReferenceData

section Places

variable {α : Type} {index : α → Nat} {xs : List α}

theorem numbered_append {x : α} (h : xs.map index = List.range xs.length)
    (next : index x = xs.length) :
    (xs ++ [x]).map index = List.range (xs ++ [x]).length := by
  rw [List.map_append, h, List.map_singleton, next, List.length_append, List.length_singleton,
    List.range_succ]

theorem numbered_modify (f : α → α) (keep : ∀ x, index (f x) = index x)
    (h : xs.map index = List.range xs.length) (k : Nat) :
    (xs.modify k f).map index = List.range (xs.modify k f).length := by
  rw [map_modify_eq keep, h, List.length_modify]

theorem numbered_map {f : α → α} (keep : ∀ x, index (f x) = index x)
    (h : xs.map index = List.range xs.length) :
    (xs.map f).map index = List.range (xs.map f).length := by
  rw [List.map_map, List.length_map, ← h]
  exact List.map_congr_left fun x _ => keep x

theorem index_ite {p : Bool} {x y : α} (same : index y = index x) :
    index (if p then y else x) = index x := by
  cases p
  · rfl
  · exact same

end Places

theorem fit_of_normalize {authored r : ReferenceData} (h : authored.normalize = .ok r) :
    r.Fit := by
  unfold normalize at h
  simp only at h
  split at h
  · cases h
  · next few =>
    split at h
    · cases h
    · next placed =>
      obtain rfl := Except.ok.inj h
      refine ⟨?_, by omega, misplaced?_none_iff.mp placed⟩
      unfold withVoid
      by_cases first : authored.startsWithVoid
      · rw [if_pos first]
        exact first
      · rw [if_neg first]
        rfl

variable {r r' : ReferenceData}

theorem startsWithVoid_iff : r.startsWithVoid ↔ ∃ p, r.particles.head? = some p ∧ p.isVoid := by
  unfold startsWithVoid
  cases r.particles.head? <;> simp

theorem Fit.settle (fit : r.Fit) (c : Conflict) : (c.settle r).Fit := by
  cases c with
  | equivalentSites kept duplicate =>
    rw [Conflict.settle_equivalentSites]
    exact { fit with numbered := { fit.numbered with
      sites := numbered_modify Site.retired (fun _ => rfl) fit.numbered.sites _ } }
  | removedParticle particle =>
    rw [Conflict.settle_removedParticle]
    exact { fit with numbered := { fit.numbered with
      particleSets := numbered_map (fun _ => rfl) fit.numbered.particleSets
      pairInteractions := numbered_map (fun _ => rfl) fit.numbered.pairInteractions
      groupInteractions := numbered_map (fun _ => rfl) fit.numbered.groupInteractions } }
  | removedSite site =>
    rw [Conflict.settle_removedSite]
    exact { fit with numbered := { fit.numbered with
      pairInteractions := numbered_map (fun _ => index_ite rfl) fit.numbered.pairInteractions
      groupInteractions := numbered_map (fun _ => index_ite rfl) fit.numbered.groupInteractions
      metropolisTransitions :=
        numbered_map (fun _ => index_ite rfl) fit.numbered.metropolisTransitions } }
  | duplicatePair existing newcomer =>
    rw [Conflict.settle_duplicatePair]
    exact { fit with numbered := { fit.numbered with
      pairInteractions := numbered_modify PairInteraction.retired (fun _ => rfl)
        fit.numbered.pairInteractions _ } }
  | duplicateGroup existing newcomer =>
    rw [Conflict.settle_duplicateGroup]
    exact { fit with numbered := { fit.numbered with
      groupInteractions := numbered_modify GroupInteraction.retired (fun _ => rfl)
        fit.numbered.groupInteractions _ } }
  | ringGeometry transition =>
    rw [Conflict.settle_ringGeometry]
    exact fit

theorem Numbered.edit (numbered : r.Numbered) {change : DataChange} (h : change.Edits r r') :
    r'.Numbered := by
  cases change with
  | addParticle p =>
    obtain ⟨next, _, rfl⟩ := h
    exact { numbered with particles := numbered_append numbered.particles next }
  | removeParticle index =>
    obtain ⟨_, rfl⟩ := h
    exact { numbered with
      particles := numbered_modify Particle.retired (fun _ => rfl) numbered.particles _ }
  | addSite site =>
    obtain ⟨next, rfl⟩ := h
    exact { numbered with sites := numbered_append numbered.sites next }
  | removeSite index =>
    obtain ⟨_, rfl⟩ := h
    exact { numbered with
      sites := numbered_modify Site.retired (fun _ => rfl) numbered.sites _ }
  | setSpaceGroup entry =>
    obtain rfl := h
    exact { numbered with }
  | addPair i =>
    obtain ⟨next, rfl⟩ := h
    exact { numbered with pairInteractions := numbered_append numbered.pairInteractions next }
  | addGroup i =>
    obtain ⟨next, rfl⟩ := h
    exact { numbered with groupInteractions := numbered_append numbered.groupInteractions next }
  | addKinetic t =>
    obtain ⟨next, rfl⟩ := h
    exact { numbered with
      kineticTransitions := numbered_append numbered.kineticTransitions next }
  | addSimulation s =>
    obtain ⟨next, rfl⟩ := h
    exact { numbered with simulations := numbered_append numbered.simulations next }

theorem Fit.edit (fit : r.Fit) {change : DataChange} (h : change.Edits r r') : r'.Fit := by
  have numbered := fit.numbered.edit h
  obtain ⟨first, hfirst, void⟩ := startsWithVoid_iff.mp fit.void
  cases change with
  | addParticle p =>
    obtain ⟨_, few, rfl⟩ := h
    refine ⟨startsWithVoid_iff.mpr ⟨first, ?_, void⟩, ?_, numbered⟩
    · rw [List.head?_append, hfirst]
      rfl
    · simp only [List.length_append, List.length_singleton]
      omega
  | removeParticle index =>
    obtain ⟨_, rfl⟩ := h
    refine ⟨startsWithVoid_iff.mpr ?_, ?_, numbered⟩
    · rw [List.head?_eq_getElem?] at hfirst ⊢
      rw [List.getElem?_modify, hfirst]
      by_cases here : index = 0
      · exact ⟨first.retired, by simp [here], void⟩
      · exact ⟨first, by simp [here], void⟩
    · rw [List.length_modify]
      exact fit.few
  | setSpaceGroup entry =>
    obtain rfl := h
    exact ⟨fit.void, fit.few, numbered⟩
  | addSite _ | removeSite _ | addPair _ | addGroup _ | addKinetic _ | addSimulation _ =>
    obtain ⟨_, rfl⟩ := h
    exact ⟨fit.void, fit.few, numbered⟩

end ReferenceData

namespace DataStore

def run (s : DataStore) (changes : List DataChange) : DataStore :=
  changes.foldl (fun s change => (s.apply change).2) s

variable {s : DataStore}

/-- One change: the data are as fit as before, and hold all that they held. -/
theorem step (standard : s.pipeline = .standard) (fit : s.data.Fit) (change : DataChange) :
    (s.apply change).2.pipeline = .standard ∧ (s.apply change).2.data.Fit ∧
      s.data.Retains (s.apply change).2.data := by
  rcases s.apply_cases change with ⟨r, report, changed, applied⟩ | ⟨failure, applied⟩
  · rw [applied]
    obtain ⟨edited, conflicts, hedit, _, rfl, _⟩ := changed_ok standard changed
    have edits := DataChange.apply_ok_iff.mp hedit
    have settled := List.foldlRecOn (motive := fun r => r.Fit ∧ s.data.Retains r) conflicts
      (fun r c => c.settle r) ⟨fit.edit edits, edits.retains⟩
      fun r ⟨fit, retains⟩ c _ => ⟨fit.settle c, retains.trans (c.retains_settle r)⟩
    exact ⟨standard, settled⟩
  · rw [applied]
    exact ⟨standard, fit, .refl _⟩

theorem run_step (standard : s.pipeline = .standard) (fit : s.data.Fit)
    (changes : List DataChange) :
    (s.run changes).pipeline = .standard ∧ (s.run changes).data.Fit ∧
      s.data.Retains (s.run changes).data := by
  induction changes generalizing s with
  | nil => exact ⟨standard, fit, .refl _⟩
  | cons change rest ih =>
    obtain ⟨standard', fit', first⟩ := step standard fit change
    obtain ⟨standard'', fit'', later⟩ := ih standard' fit'
    exact ⟨standard'', fit'', first.trans later⟩

/-- A store with loaded or checked data, after any changes: its data pass the check of a build,
hold every object at its place with all that they held at any earlier time, and are untouched by a
change that fails. -/
theorem data_kept {r : ReferenceData}
    (accepted : (∃ authored : ReferenceData, authored.normalize = .ok r) ∨
      r.checkPlaces = .ok ())
    (tolerance : Tolerance) (changes : List DataChange) :
    let s := (DataStore.mk r .standard tolerance).run changes
    s.data.checkPlaces = .ok () ∧ s.data.Fit ∧ r.Retains s.data ∧
      (∀ later, s.data.Retains (s.run later).data) ∧
      ∀ change failure, (s.apply change).1 = .error failure → (s.apply change).2 = s := by
  intro s
  have fit : r.Fit := by
    rcases accepted with ⟨authored, loaded⟩ | checked
    · exact ReferenceData.fit_of_normalize loaded
    · exact ReferenceData.checkPlaces_ok_iff.mp checked
  obtain ⟨standard, fit, retains⟩ := run_step (s := ⟨r, .standard, tolerance⟩) rfl fit changes
  refine ⟨ReferenceData.checkPlaces_ok_iff.mpr fit, fit, retains, ?_, ?_⟩
  · intro later
    exact (run_step standard fit later).2.2
  · intro change failure failed
    rcases s.apply_cases change with ⟨_, report, _, applied⟩ | ⟨_, applied⟩
    · rw [applied] at failed
      cases failed
    · rw [applied]

open ReferenceData in
theorem chain_data_kept : ∃ s, (DataStore.mk chain .standard (.ofWidth 1.0e-6)).run
      [.removeSite 0, .removeSite 5, .removeParticle 1] = s ∧
    s.data.sites.map (·.state) = [.deprecated] ∧ s.data.checkPlaces = .ok () ∧
    chain.Retains s.data ∧ (s.apply (.removeParticle 0)).2 = s := by
  obtain ⟨checked, _, retains, _, untouched⟩ := data_kept (r := chain) (Or.inr rfl)
    (.ofWidth 1.0e-6) [.removeSite 0, .removeSite 5, .removeParticle 1]
  refine ⟨_, rfl, rfl, checked, retains, untouched (.removeParticle 0) ?_ ?_⟩
  · exact ⟨.invalid .particle 0 .noSuchObject, []⟩
  · rfl

end DataStore

end CrystalModel
