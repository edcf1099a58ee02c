import CrystalModel.Proofs.Store.Account
import CrystalModel.Proofs.Store.References

/-! # Reports that account for every change

Every handler records exactly what it does, so the report of an accepted change accounts for all
that resolving its conflicts did. Sets and energies lose what goes with a removed particle only. -/
namespace CrystalModel

section Handlers

open Conflict Handler

variable {r r' : ReferenceData} {records : List Amendment}

theorem recordsOf_filter {α : Type} {domain : Domain} {number : α → Nat} {p : α → Bool}
    {action : Action} (xs : List α) :
    (xs.filter p).map (fun x => (⟨domain, number x, action⟩ : Amendment)) =
      recordsOf domain number (fun x => if p x then some action else none) xs := by
  rw [recordsOf, ← List.filterMap_eq_map, List.filterMap_filter]
  refine List.filterMap_congr fun x _ => ?_
  cases p x <;> rfl

theorem droppedRecord_eq {α : Type} (domain : Domain) (index : Nat) (energies : List α)
    (mentions : α → Bool) :
    droppedRecord domain index energies.length (energies.filter (!mentions ·)).length =
      (if energies.any mentions then some (.droppedEnergies (energies.countP mentions))
        else none).map fun action => ⟨domain, index, action⟩ := by
  have parts : energies.length = energies.countP mentions +
      (energies.filter (!mentions ·)).length := by
    rw [← List.countP_eq_length_filter, List.length_eq_countP_add_countP mentions]
    simp only [Bool.not_eq_true, Bool.decide_eq_false]
  unfold droppedRecord
  by_cases held : energies.any mentions
  · have counted : 0 < energies.countP mentions := by
      rw [List.countP_pos_iff]
      simpa using held
    rw [if_neg (by omega), if_pos held, parts, Nat.add_sub_cancel]
    rfl
  · have uncounted : energies.countP mentions = 0 := by
      rw [List.countP_eq_zero]
      simpa using held
    rw [if_pos (by omega), if_neg held]
    rfl

theorem retire_of_answer {handler : Handler}
    (known : handler ∈ [retireImage, retireNewPair, retireNewGroup]) {c : Conflict}
    (h : handler c r = some (r', records)) : ∃ domain index, domain ≠ .particleSet ∧
      r' = r.retire domain index ∧ records = [⟨domain, index, .deprecated⟩] := by
  have answered : ∀ {deferred : Bool} {changed : ReferenceData × List Amendment},
      (if deferred then none else some changed) = some (r', records) → changed = (r', records) := by
    intro deferred changed answer
    cases deferred
    · exact Option.some.inj answer
    · cases answer
  simp only [List.mem_cons, List.not_mem_nil, or_false] at known
  rcases known with rfl | rfl | rfl
  · cases c with
    | equivalentSites kept duplicate =>
      cases answered h
      exact ⟨.site, duplicate, by decide, rfl, rfl⟩
    | _ => cases h
  · cases c with
    | duplicatePair existing newcomer =>
      cases answered h
      exact ⟨.pairInteraction, newcomer, by decide, rfl, rfl⟩
    | _ => cases h
  · cases c with
    | duplicateGroup existing newcomer =>
      cases answered h
      exact ⟨.groupInteraction, newcomer, by decide, rfl, rfl⟩
    | _ => cases h

theorem stripSet_undergone (particle : Nat) (s : ParticleSet) :
    Undergone ParticleSet.Amended
      (if s.particles.contains particle then some (.removedParticle particle) else none).toList
      s (stripSet particle s) := by
  by_cases held : s.particles.contains particle
  · rw [if_pos held]
    exact .action (.without s particle (List.contains_iff_mem.mp held)) (.nothing _)
  · have whole : s.particles.filter (· != particle) = s.particles := by
      rw [List.filter_eq_self]
      rintro p hp
      rw [bne_iff_ne]
      rintro rfl
      exact held (List.contains_iff_mem.mpr hp)
    rw [if_neg held, stripSet, whole]
    exact .nothing s

theorem filter_not_any {α : Type} {xs : List α} {p : α → Bool} (h : ¬xs.any p) :
    xs.filter (!p ·) = xs := by
  rw [List.filter_eq_self]
  intro x hx
  simpa using (List.any_eq_false.mp (Bool.eq_false_iff.mpr h)) x hx

theorem stripped_undergone {α ε : Type} {amended : Action → α → α → Prop} {energies : List ε}
    {mentions : ε → Bool} {x : α} (put : List ε → α) (whole : put energies = x)
    (without : energies.any mentions →
      amended (.droppedEnergies (energies.countP mentions)) x
        (put (energies.filter (!mentions ·)))) :
    Undergone amended (if energies.any mentions
        then some (.droppedEnergies (energies.countP mentions)) else none).toList
      x (put (energies.filter (!mentions ·))) := by
  by_cases held : energies.any mentions
  · rw [if_pos held]
    exact .action (without held) (.nothing _)
  · rw [if_neg held, filter_not_any held, whole]
    exact .nothing x

theorem forgetParticle_accounted (placed : r.Numbered) {c : Conflict}
    (h : forgetParticle c r = some (r', records)) : r.AccountedFor records r' := by
  cases c with
  | removedParticle particle =>
    obtain ⟨rfl, rfl⟩ := Prod.mk.inj (Option.some.inj h)
    have pairs : (r.pairInteractions.filterMap fun i => droppedRecord .pairInteraction i.index
          i.energies.length (stripPair particle i).energies.length) =
        recordsOf .pairInteraction (·.index) _ r.pairInteractions :=
      List.filterMap_congr fun i _ => droppedRecord_eq _ _ i.energies (·.mentions particle)
    have groups : (r.groupInteractions.filterMap fun i => droppedRecord .groupInteraction i.index
          i.energies.length (stripGroup particle i).energies.length) =
        recordsOf .groupInteraction (·.index) _ r.groupInteractions :=
      List.filterMap_congr fun i _ => droppedRecord_eq _ _ i.energies (·.mentions particle)
    rw [recordsOf_filter, pairs, groups]
    exact { ReferenceData.AccountedFor.refl r with
      particleSets := .of_recordsOf placed.particleSets (fun _ => rfl)
        (stripSet_undergone particle) (by simp)
      sites := .same (by simp) _
      pairInteractions := .of_recordsOf placed.pairInteractions (fun _ => rfl)
        (fun i =>
          stripped_undergone (fun energies => { i with energies }) rfl (.without i particle))
        (by simp)
      groupInteractions := .of_recordsOf placed.groupInteractions (fun _ => rfl)
        (fun i =>
          stripped_undergone (fun energies => { i with energies }) rfl (.without i particle))
        (by simp)
      metropolisTransitions := .same (by simp) _ }
  | _ => cases h

theorem retireDependents_accounted (placed : r.Numbered) {c : Conflict}
    (h : retireDependents c r = some (r', records)) : r.AccountedFor records r' := by
  cases c with
  | removedSite site =>
    obtain ⟨rfl, rfl⟩ := Prod.mk.inj (Option.some.inj h)
    rw [recordsOf_filter, recordsOf_filter, recordsOf_filter]
    exact { ReferenceData.AccountedFor.refl r with
      particleSets := .same (by simp) _
      sites := .same (by simp) _
      pairInteractions := .of_recordsOf placed.pairInteractions
        (fun _ => ReferenceData.index_ite rfl) (fun i => .ite (.retired i)) (by simp)
      groupInteractions := .of_recordsOf placed.groupInteractions
        (fun _ => ReferenceData.index_ite rfl) (fun i => .ite (.retired i)) (by simp)
      metropolisTransitions := .of_recordsOf placed.metropolisTransitions
        (fun _ => ReferenceData.index_ite rfl) (fun t => .ite (.retired t)) (by simp) }
  | _ => cases h

theorem mem_standard {kind : ConflictKind} {handler : Handler}
    (h : handler ∈ Pipeline.standard.handlers kind) :
    handler ∈ [retireImage, retireNewPair, retireNewGroup] ∨ handler = forgetParticle ∨
      handler = retireDependents := by
  cases kind <;> simp_all [Pipeline.standard, Pipeline.register, Pipeline.empty]

/-- Resolving one conflict is accounted for by the records of its handler. -/
theorem answer_accounted (placed : r.Numbered) {c : Conflict}
    (h : c.answer r = some (r', records)) : r.AccountedFor records r' := by
  obtain ⟨handler, registered, answered⟩ := List.exists_of_findSome?_eq_some h
  have known := mem_standard registered
  rcases known with known | rfl | rfl
  · obtain ⟨domain, index, apart, rfl, rfl⟩ := retire_of_answer known answered
    exact .retire placed apart index
  · exact forgetParticle_accounted placed answered
  · exact retireDependents_accounted placed answered

/-- Resolving conflicts one after the other is accounted for by the report. -/
theorem resolve_accounted (placed : r.Numbered) (conflicts : List Conflict) :
    r.AccountedFor (Pipeline.standard.resolve r conflicts).2.records
      (Pipeline.standard.resolve r conflicts).1 := by
  suffices ∀ state : ReferenceData × ResolutionReport, r.AccountedFor state.2.records state.1 →
      r.AccountedFor (conflicts.foldl Pipeline.standard.resolveOne state).2.records
        (conflicts.foldl Pipeline.standard.resolveOne state).1 from
    this (r, .empty) (.refl r)
  induction conflicts with
  | nil =>
    intro state account
    exact account
  | cons c rest ih =>
    intro state account
    rw [List.foldl_cons]
    apply ih
    unfold Pipeline.resolveOne
    split
    · next r' records answered =>
      have whole : (state.2.resolved ++ [(c, records)]).flatMap (·.2) =
          state.2.records ++ records := by
        simp [ResolutionReport.records]
      have step := answer_accounted (account.numbered placed) answered
      rw [ResolutionReport.records, whole]
      exact account.trans step
    · exact account

end Handlers

def DataChange.lost : DataChange → Option Nat
  | removeParticle particle => some particle
  | _ => none

def Conflict.lost : Conflict → Option Nat
  | removedParticle particle => some particle
  | _ => none

/-- What sets and energies lose with a particle: the particle itself, and the energies that
mention it. All else stays, in its order. -/
structure ReferenceData.Loses (particle : Option Nat) (r r' : ReferenceData) : Prop where
  particleSets : r'.particleSets.map (·.particles) =
    r.particleSets.map fun s => s.particles.filter fun p => some p ≠ particle
  pairEnergies : r'.pairInteractions.map (·.energies) =
    r.pairInteractions.map fun i => i.energies.filter fun e => !particle.any e.mentions
  groupEnergies : r'.groupInteractions.map (·.energies) =
    r.groupInteractions.map fun i => i.energies.filter fun e => !particle.any e.mentions

section Losses

variable {r r' r'' : ReferenceData} {particle : Option Nat} {t : Tolerance}
  {conflicts : List Conflict}

namespace ReferenceData

theorem loses_none (particleSets : r'.particleSets = r.particleSets)
    (pairEnergies : r'.pairInteractions.map (·.energies) = r.pairInteractions.map (·.energies))
    (groupEnergies : r'.groupInteractions.map (·.energies) =
      r.groupInteractions.map (·.energies)) : r.Loses none r' := by
  constructor
  · simp [particleSets]
  · simpa using pairEnergies
  · simpa using groupEnergies

theorem Loses.trans (h : r.Loses particle r') (k : r'.Loses particle r'') :
    r.Loses particle r'' := by
  have twice : ∀ {α β : Type} {f : α → List β} {p : β → Bool} {xs ys zs : List α},
      ys.map f = xs.map (fun x => (f x).filter p) → zs.map f = ys.map (fun y => (f y).filter p) →
      zs.map f = xs.map fun x => (f x).filter p := by
    intro α β f p xs ys zs first second
    have mapped := congrArg (List.map (List.filter p)) first
    simp only [List.map_map, Function.comp_def, List.filter_filter, Bool.and_self] at mapped
    rw [second, mapped]
  exact ⟨twice h.particleSets k.particleSets, twice h.pairEnergies k.pairEnergies,
    twice h.groupEnergies k.groupEnergies⟩

end ReferenceData

namespace Conflict

theorem map_ite_eq {α β : Type} {drops : α → Bool} (retired : α → α) {f : α → β}
    (keep : ∀ x, f (retired x) = f x) (xs : List α) :
    (xs.map fun x => if drops x then retired x else x).map f = xs.map f := by
  rw [List.map_map]
  refine List.map_congr_left fun x _ => ?_
  change f (if drops x then retired x else x) = f x
  cases drops x
  · rfl
  · exact keep x

theorem settle_loses (c : Conflict) (r : ReferenceData) : r.Loses c.lost (c.settle r) := by
  cases c with
  | removedParticle particle =>
    rw [settle_removedParticle]
    constructor
    · rw [List.map_map]
      refine List.map_congr_left fun s _ => List.filter_congr fun p _ => ?_
      rw [Bool.eq_iff_iff, bne_iff_ne, decide_eq_true_iff, lost, ne_eq, ne_eq, Option.some.injEq]
    · rw [List.map_map]
      rfl
    · rw [List.map_map]
      rfl
  | equivalentSites kept duplicate =>
    rw [settle_equivalentSites]
    exact ReferenceData.loses_none rfl rfl rfl
  | removedSite site =>
    rw [settle_removedSite]
    exact ReferenceData.loses_none rfl (map_ite_eq PairInteraction.retired (fun _ => rfl) _)
      (map_ite_eq GroupInteraction.retired (fun _ => rfl) _)
  | duplicatePair existing newcomer =>
    rw [settle_duplicatePair]
    exact ReferenceData.loses_none rfl (map_modify_eq fun _ => rfl) rfl
  | duplicateGroup existing newcomer =>
    rw [settle_duplicateGroup]
    exact ReferenceData.loses_none rfl rfl (map_modify_eq fun _ => rfl)
  | ringGeometry transition =>
    rw [settle_ringGeometry]
    exact ReferenceData.loses_none rfl rfl rfl

theorem settled_loses (alike : ∀ c ∈ conflicts, c.lost = particle)
    (start : conflicts = [] → r.Loses particle r) :
    r.Loses particle (conflicts.foldl (fun r c => c.settle r) r) := by
  cases conflicts with
  | nil => exact start rfl
  | cons first rest =>
    rw [List.foldl_cons]
    have settled := alike first List.mem_cons_self ▸ first.settle_loses r
    refine List.foldlRecOn (motive := fun r' => r.Loses particle r') rest
      (fun r c => c.settle r) settled fun r' loses c hc => ?_
    exact loses.trans (alike c (List.mem_cons_of_mem first hc) ▸ c.settle_loses r')

end Conflict

namespace DataChange

theorem conflicts_lost {change : DataChange} (found : change.conflicts r t = .ok conflicts) :
    ∀ c ∈ conflicts, c.lost = change.lost := by
  intro c hc
  cases change with
  | removeParticle particle =>
    rw [conflicts_removeParticle found] at hc
    split at hc
    · rw [List.mem_singleton.mp hc]
      rfl
    · cases hc
  | removeSite site =>
    rw [conflicts_removeSite found] at hc
    split at hc
    · rw [List.mem_singleton.mp hc]
      rfl
    · cases hc
  | setSpaceGroup entry =>
    obtain ⟨s, _, rfl⟩ := conflicts_setSpaceGroup found
    obtain ⟨kept, duplicate, rfl⟩ := ReferenceData.equivalentSites_only c hc
    rfl
  | addSite site =>
    obtain ⟨kept, rfl⟩ := conflicts_addSite found c hc
    rfl
  | addPair i =>
    obtain ⟨s, _, found⟩ := bind_ok_iff.mp found
    obtain rfl := pure_ok_iff.mp found
    obtain ⟨existing, _, rfl⟩ := Option.map_eq_some_iff.mp (Option.mem_toList.mp hc)
    rfl
  | addGroup i =>
    obtain ⟨s, _, found⟩ := bind_ok_iff.mp found
    obtain rfl := pure_ok_iff.mp found
    have named := Option.mem_toList.mp hc
    unfold ReferenceData.duplicateGroup? at named
    split at named
    · cases named
    · obtain ⟨existing, _, rfl⟩ := Option.map_eq_some_iff.mp named
      rfl
  | addKinetic transition =>
    obtain rfl := pure_ok_iff.mp found
    split at hc
    · rw [List.mem_singleton.mp hc]
      rfl
    · cases hc
  | addParticle _ | addSimulation _ =>
    obtain rfl := pure_ok_iff.mp found
    cases hc

theorem loses_nothing {change : DataChange} (found : change.conflicts r t = .ok []) :
    r.Loses change.lost r := by
  cases change with
  | removeParticle particle =>
    have unmentioned : r.mentionsParticle particle = false := by
      by_contra mentioned
      have listed := conflicts_removeParticle found
      rw [if_pos (Bool.not_eq_false _ ▸ mentioned)] at listed
      cases listed
    simp only [ReferenceData.mentionsParticle, Bool.or_eq_false_iff, List.any_eq_false]
      at unmentioned
    obtain ⟨⟨sets, pairs⟩, groups⟩ := unmentioned
    refine ⟨List.map_congr_left fun s hs => ?_, List.map_congr_left fun i hi => ?_,
      List.map_congr_left fun i hi => ?_⟩
    · rw [eq_comm, List.filter_eq_self]
      intro p hp
      rw [decide_eq_true_iff, lost, ne_eq, Option.some.injEq]
      rintro rfl
      exact sets s hs (List.contains_iff_mem.mpr hp)
    · exact (filter_not_any (pairs i hi)).symm
    · exact (filter_not_any (groups i hi)).symm
  | _ => exact ReferenceData.loses_none rfl rfl rfl

end DataChange

end Losses

namespace DataStore

variable {r : ReferenceData} {t : Tolerance} {change : DataChange} {report : ResolutionReport}
  {after : DataStore}

/-- Behind an accepted change every object is as the change alone left it, apart from what the
report records under its domain and index. Sets and energies lose what goes with a removed
particle, and nothing else. -/
theorem changes_accounted (placed : r.misplaced? = none)
    (h : (DataStore.mk r .standard t).apply change = (.ok report, after)) :
    ∃ bare, change.apply r = .ok bare ∧ bare.Numbered ∧
      bare.AccountedFor report.records after.data ∧ bare.Loses change.lost after.data := by
  obtain ⟨changed, _⟩ := apply_ok h
  obtain ⟨bare, conflicts, hedit, found, resolved, _⟩ := changed_resolved changed
  have numbered := (ReferenceData.misplaced?_none_iff.mp placed).edit
    (DataChange.apply_ok_iff.mp hedit)
  have data : after.data = (Pipeline.standard.resolve bare conflicts).1 := by rw [resolved]
  have records : report = (Pipeline.standard.resolve bare conflicts).2 := by rw [resolved]
  refine ⟨bare, hedit, numbered, ?_, ?_⟩
  · rw [data, records]
    exact resolve_accounted numbered conflicts
  · rw [data, Pipeline.resolve_data]
    refine Conflict.settled_loses (DataChange.conflicts_lost found) ?_
    rintro rfl
    exact DataChange.loses_nothing found

def chargedChain : ReferenceData := { ReferenceData.chain with
  pairInteractions := [⟨0, 0, 0, ⟨0.0, 0.0, 0.0⟩, ⟨1.0, 0.0, 0.0⟩, .symmetric,
    [⟨1, 1, 0.5⟩, ⟨2, 2, 0.25⟩, ⟨1, 2, 0.125⟩], .active⟩]
  groupInteractions := [⟨0, 0, [⟨1.0, 0.0, 0.0⟩], [⟨2, [1], 1.0⟩, ⟨2, [2], 2.0⟩], .active⟩] }

theorem chargedChain_accounted : ∃ report after bare,
    (DataStore.mk chargedChain .standard (.ofWidth 1.0e-6)).apply (.removeParticle 1) =
      (.ok report, after) ∧
    report.records = [⟨.particleSet, 0, .removedParticle 1⟩,
      ⟨.pairInteraction, 0, .droppedEnergies 2⟩, ⟨.groupInteraction, 0, .droppedEnergies 1⟩] ∧
    (DataChange.removeParticle 1).apply chargedChain = .ok bare ∧
    bare.AccountedFor report.records after.data ∧ bare.Loses (some 1) after.data := by
  obtain ⟨bare, edited, _, account, losses⟩ := @changes_accounted chargedChain (.ofWidth 1.0e-6)
    (.removeParticle 1) _ _ rfl rfl
  exact ⟨_, _, bare, rfl, rfl, edited, account, losses⟩

end DataStore

end CrystalModel
