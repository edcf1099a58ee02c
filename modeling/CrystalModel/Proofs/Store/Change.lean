import CrystalModel.Proofs.Fallible
import CrystalModel.Store.Basic

/-! # Changes that a store takes over

What the standard pipeline makes of each kind of conflict, what a list of conflicts comes to, and
what is known of a change that was taken over. -/
namespace CrystalModel

def Particle.retired (p : Particle) : Particle := { p with state := .deprecated }

def Site.retired (s : Site) : Site := { s with state := .deprecated }

@[simp] theorem Site.isActive_retired (s : Site) : s.retired.isActive = false := rfl

def PairInteraction.retired (i : PairInteraction) : PairInteraction :=
  { i with state := .deprecated }

def GroupInteraction.retired (i : GroupInteraction) : GroupInteraction :=
  { i with state := .deprecated }

def MetropolisTransition.retired (t : MetropolisTransition) : MetropolisTransition :=
  { t with state := .deprecated }

namespace DataChange

/-- What a change makes of data that it fits: a new object takes the next free place, a removed
one is retired at its own. -/
def Edits (r : ReferenceData) : DataChange → ReferenceData → Prop
  | addParticle p, r' => p.index = r.particles.length ∧ r.particles.length < particleLimit ∧
      r' = { r with particles := r.particles ++ [p] }
  | removeParticle index, r' => (∃ p, r.particles[index]? = some p ∧ p.isVoid = false) ∧
      r' = { r with particles := r.particles.modify index Particle.retired }
  | addSite s, r' => s.index = r.sites.length ∧ r' = { r with sites := r.sites ++ [s] }
  | removeSite index, r' => index < r.sites.length ∧
      r' = { r with sites := r.sites.modify index Site.retired }
  | setSpaceGroup entry, r' => r' = { r with spaceGroup := entry }
  | addPair i, r' => i.index = r.pairInteractions.length ∧
      r' = { r with pairInteractions := r.pairInteractions ++ [i] }
  | addGroup i, r' => i.index = r.groupInteractions.length ∧
      r' = { r with groupInteractions := r.groupInteractions ++ [i] }
  | addKinetic t, r' => t.index = r.kineticTransitions.length ∧
      r' = { r with kineticTransitions := r.kineticTransitions ++ [t] }
  | addSimulation s, r' => s.index = r.simulations.length ∧
      r' = { r with simulations := r.simulations ++ [s] }

theorem append_ok_iff {α : Type} {domain : Domain} {index : Nat} {xs ys : List α} {x : α} :
    append domain index xs x = .ok ys ↔ index = xs.length ∧ xs ++ [x] = ys := by
  unfold append
  by_cases next : index = xs.length
  · rw [if_pos next, Except.ok.injEq]
    exact ⟨fun h => ⟨next, h⟩, And.right⟩
  · rw [if_neg next]
    constructor
    · intro h
      cases h
    · rintro ⟨same, _⟩
      exact absurd same next

variable {r r' : ReferenceData}

theorem append_edits {α : Type} {domain : Domain} {index : Nat} {xs : List α} {x : α}
    (put : List α → ReferenceData) :
    (do return put (← append domain index xs x) : Except BuildError ReferenceData) = .ok r' ↔
      index = xs.length ∧ r' = put (xs ++ [x]) := by
  simp only [bind_ok_iff, append_ok_iff, pure_ok_iff]
  constructor
  · rintro ⟨_, ⟨next, rfl⟩, rfl⟩
    exact ⟨next, rfl⟩
  · rintro ⟨next, rfl⟩
    exact ⟨_, ⟨next, rfl⟩, rfl⟩

theorem apply_ok_iff {change : DataChange} : change.apply r = .ok r' ↔ change.Edits r r' := by
  cases change with
  | addParticle p =>
    simp only [apply, Edits, bind_ok_iff, append_ok_iff]
    constructor
    · rintro ⟨_, ⟨next, rfl⟩, h⟩
      split at h
      · cases h
      · next few => exact ⟨next, Nat.lt_of_not_le few, (pure_ok_iff.mp h).symm⟩
    · rintro ⟨next, few, rfl⟩
      refine ⟨_, ⟨next, rfl⟩, ?_⟩
      rw [if_neg (Nat.not_le_of_lt few)]
      rfl
  | removeParticle index =>
    simp only [apply, Edits]
    cases found : r.particles[index]? with
    | none => simp
    | some p =>
      cases void : p.isVoid with
      | true => simp [void]
      | false =>
        rw [if_neg (by simp [void]), pure_ok_iff]
        constructor
        · intro h
          exact ⟨⟨p, rfl, void⟩, h.symm⟩
        · rintro ⟨_, rfl⟩
          rfl
  | addSite s => exact append_edits fun sites => { r with sites }
  | removeSite index =>
    simp only [apply, Edits]
    by_cases inside : index < r.sites.length
    · rw [if_neg (by simp [inside]), pure_ok_iff]
      constructor
      · intro h
        exact ⟨inside, h.symm⟩
      · rintro ⟨_, rfl⟩
        rfl
    · simp [inside]
  | setSpaceGroup entry =>
    simp only [apply, Edits, pure_ok_iff]
    exact eq_comm
  | addPair i => exact append_edits fun pairInteractions => { r with pairInteractions }
  | addGroup i => exact append_edits fun groupInteractions => { r with groupInteractions }
  | addKinetic t => exact append_edits fun kineticTransitions => { r with kineticTransitions }
  | addSimulation s => exact append_edits fun simulations => { r with simulations }

end DataChange

namespace Conflict

def answer (c : Conflict) (r : ReferenceData) : Option (ReferenceData × List Amendment) :=
  (Pipeline.standard.handlers c.kind).findSome? (· c r)

/-- The data behind a conflict; what is not resolved leaves them as they are. -/
def settle (c : Conflict) (r : ReferenceData) : ReferenceData := ((c.answer r).map (·.1)).getD r

variable {r : ReferenceData}

theorem settle_of_answer {c : Conflict} {x : ReferenceData × List Amendment}
    (h : c.answer r = some x) : c.settle r = x.1 := by
  rw [settle, h]
  rfl

theorem settle_of_none {c : Conflict} (h : c.answer r = none) : c.settle r = r := by
  rw [settle, h]
  rfl

theorem modify_missing {α : Type} {xs : List α} {k : Nat} (f : α → α)
    (h : xs[k]?.isNone) : xs.modify k f = xs := by
  refine List.ext_getElem? fun i => ?_
  rw [List.getElem?_modify]
  by_cases hk : k = i
  · subst hk
    rw [Option.isNone_iff_eq_none.mp h]
    rfl
  · simp [hk]

theorem settle_at {α : Type} {c : Conflict} {xs : List α} {k : Nat} {f : α → α}
    (put : List α → ReferenceData) (records : List Amendment) (whole : put xs = r)
    (found : c.answer r = if xs[k]?.isNone then none else some (put (xs.modify k f), records)) :
    c.settle r = put (xs.modify k f) := by
  by_cases missing : xs[k]?.isNone
  · rw [if_pos missing] at found
    rw [settle_of_none found, modify_missing f missing, whole]
  · rw [if_neg missing] at found
    exact settle_of_answer found

theorem settle_equivalentSites {kept duplicate : Nat} :
    (equivalentSites kept duplicate).settle r =
      { r with sites := r.sites.modify duplicate Site.retired } := by
  refine settle_at (fun sites => { r with sites })
    [⟨.site, duplicate, .deprecated⟩] rfl ?_
  simp [answer, kind, Pipeline.standard, Pipeline.register, Pipeline.empty, Handler.retireImage]
  rfl

theorem settle_removedParticle {particle : Nat} :
    (removedParticle particle).settle r = { r with
      particleSets := r.particleSets.map (Handler.stripSet particle)
      pairInteractions := r.pairInteractions.map (Handler.stripPair particle)
      groupInteractions := r.groupInteractions.map (Handler.stripGroup particle) } := by
  simp [settle, answer, kind, Pipeline.standard, Pipeline.register, Pipeline.empty,
    Handler.forgetParticle]

theorem settle_removedSite {site : Nat} :
    (removedSite site).settle r = { r with
      pairInteractions := r.pairInteractions.map fun i =>
        if i.isActive && i.mentions site then i.retired else i
      groupInteractions := r.groupInteractions.map fun i =>
        if i.isActive && i.centerSite == site then i.retired else i
      metropolisTransitions := r.metropolisTransitions.map fun t =>
        if t.isActive && t.mentions site then t.retired else t } := by
  simp [settle, answer, kind, Pipeline.standard, Pipeline.register, Pipeline.empty,
    Handler.retireDependents, PairInteraction.retired, GroupInteraction.retired,
    MetropolisTransition.retired]

theorem settle_duplicatePair {existing newcomer : Nat} :
    (duplicatePair existing newcomer).settle r =
      { r with
        pairInteractions := r.pairInteractions.modify newcomer PairInteraction.retired } := by
  refine settle_at (fun pairInteractions => { r with pairInteractions })
    [⟨.pairInteraction, newcomer, .deprecated⟩] rfl ?_
  simp [answer, kind, Pipeline.standard, Pipeline.register, Pipeline.empty,
    Handler.retireNewPair]
  rfl

theorem settle_duplicateGroup {existing newcomer : Nat} :
    (duplicateGroup existing newcomer).settle r =
      { r with
        groupInteractions := r.groupInteractions.modify newcomer GroupInteraction.retired } := by
  refine settle_at (fun groupInteractions => { r with groupInteractions })
    [⟨.groupInteraction, newcomer, .deprecated⟩] rfl ?_
  simp [answer, kind, Pipeline.standard, Pipeline.register, Pipeline.empty,
    Handler.retireNewGroup]
  rfl

@[simp] theorem settle_ringGeometry {transition : Nat} :
    (ringGeometry transition).settle r = r := by
  simp [settle, answer, kind, Pipeline.standard, Pipeline.register, Pipeline.empty]

end Conflict

namespace Pipeline

/-- Resolving settles one conflict after the other. -/
theorem resolve_data (r : ReferenceData) (conflicts : List Conflict) :
    (standard.resolve r conflicts).1 = conflicts.foldl (fun r c => c.settle r) r := by
  suffices ∀ state, (conflicts.foldl standard.resolveOne state).1 =
      conflicts.foldl (fun r c => c.settle r) state.1 from this (r, .empty)
  induction conflicts with
  | nil =>
    intro state
    rfl
  | cons c rest ih =>
    intro state
    rw [List.foldl_cons, List.foldl_cons, ih]
    congr 1
    unfold resolveOne
    cases found : c.answer state.1 with
    | none =>
      rw [Conflict.settle_of_none found]
      rw [Conflict.answer] at found
      rw [found]
    | some x =>
      rw [Conflict.settle_of_answer found]
      rw [Conflict.answer] at found
      rw [found]

theorem resolve_resolved {r : ReferenceData} {conflicts : List Conflict}
    (h : (standard.resolve r conflicts).2.unresolved = []) :
    (standard.resolve r conflicts).2.resolved.map (·.1) = conflicts := by
  suffices ∀ state, (conflicts.foldl standard.resolveOne state).2.unresolved = [] →
      state.2.unresolved = [] ∧ (conflicts.foldl standard.resolveOne state).2.resolved.map (·.1) =
        state.2.resolved.map (·.1) ++ conflicts by
    simpa [resolve, ResolutionReport.empty] using (this (r, .empty) h).2
  clear h
  induction conflicts with
  | nil =>
    intro state clean
    exact ⟨clean, by simp⟩
  | cons c rest ih =>
    intro state clean
    obtain ⟨before, listed⟩ := ih _ clean
    rw [List.foldl_cons, listed]
    unfold resolveOne at before ⊢
    split at before
    · exact ⟨before, by simp⟩
    · simp at before

end Pipeline

namespace DataStore

variable {s : DataStore} {change : DataChange} {r : ReferenceData} {report : ResolutionReport}

theorem changed_resolved (h : s.changed change = .ok (r, report)) :
    ∃ edited conflicts, change.apply s.data = .ok edited ∧
      change.conflicts edited s.tolerance = .ok conflicts ∧
      s.pipeline.resolve edited conflicts = (r, report) ∧ report.unresolved = [] := by
  obtain ⟨edited, hedited, h⟩ := bind_ok_iff.mp h
  obtain ⟨conflicts, hconflicts, h⟩ := bind_ok_iff.mp h
  simp only at h
  split at h
  · next clean =>
    obtain ⟨rfl, rfl⟩ := Prod.mk.inj (pure_ok_iff.mp h)
    exact ⟨edited, conflicts, hedited, mapError_ok_iff.mp hconflicts, rfl,
      List.isEmpty_iff.mp clean⟩
  · cases h

theorem changed_ok (standard : s.pipeline = .standard) (h : s.changed change = .ok (r, report)) :
    ∃ edited conflicts, change.apply s.data = .ok edited ∧
      change.conflicts edited s.tolerance = .ok conflicts ∧
      r = conflicts.foldl (fun r c => c.settle r) edited ∧
      report.resolved.map (·.1) = conflicts ∧ report.unresolved = [] := by
  obtain ⟨edited, conflicts, hedited, found, resolved, none_left⟩ := changed_resolved h
  rw [standard] at resolved
  obtain ⟨rfl, rfl⟩ := Prod.mk.inj resolved
  exact ⟨edited, conflicts, hedited, found, Pipeline.resolve_data _ _,
    Pipeline.resolve_resolved none_left, none_left⟩

theorem apply_ok {after : DataStore} (h : s.apply change = (.ok report, after)) :
    s.changed change = .ok (after.data, report) ∧ after = { s with data := after.data } := by
  unfold apply at h
  split at h
  · next found =>
    obtain ⟨same, rfl⟩ := Prod.mk.inj h
    cases same
    exact ⟨found, rfl⟩
  · cases h

/-- A change is taken over as a whole, or leaves the store as it is. -/
theorem apply_cases (s : DataStore) (change : DataChange) :
    (∃ r report, s.changed change = .ok (r, report) ∧
      s.apply change = (.ok report, { s with data := r })) ∨
    ∃ failure, s.apply change = (.error failure, s) := by
  unfold apply
  cases found : s.changed change with
  | ok x => exact Or.inl ⟨x.1, x.2, rfl, rfl⟩
  | error e => exact Or.inr ⟨_, rfl⟩

end DataStore

end CrystalModel
