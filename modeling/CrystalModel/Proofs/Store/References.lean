import CrystalModel.Proofs.Store.Detection

/-! # Sites that objects rely on

Removing a site or a particle and adding a site never leave an active interaction or transition
without its sites. A new space group does, when one of the sites that it makes redundant is still
named: redundant sites are retired alone. -/
namespace CrystalModel

namespace ReferenceData

def HasSite (r : ReferenceData) (k : Nat) : Prop := ∃ s, r.sites[k]? = some s ∧ s.isActive

instance (r : ReferenceData) (k : Nat) : Decidable (r.HasSite k) :=
  decidable_of_iff (r.sites[k]?.any (·.isActive)) (Option.any_eq_true _ _)

/-- Every active interaction and transition names sites that take part in builds. -/
structure Anchored (r : ReferenceData) : Prop where
  pairs : ∀ i ∈ r.pairInteractions, i.isActive → r.HasSite i.site0 ∧ r.HasSite i.site1
  groups : ∀ i ∈ r.groupInteractions, i.isActive → r.HasSite i.centerSite
  metropolis : ∀ t ∈ r.metropolisTransitions, t.isActive → r.HasSite t.site0 ∧ r.HasSite t.site1

variable {r r' : ReferenceData}

theorem anchored_iff : r.Anchored ↔ ∀ k, r.mentionsSite k → r.HasSite k := by
  constructor
  · intro anchored k named
    rcases mentionsSite_iff.mp named with ⟨i, hi, active, ends⟩ | ⟨i, hi, active, rfl⟩ |
      ⟨t, ht, active, ends⟩
    · obtain ⟨first, second⟩ := anchored.pairs i hi active
      rcases Bool.or_eq_true_iff.mp ends with same | same
      · exact eq_of_beq same ▸ first
      · exact eq_of_beq same ▸ second
    · exact anchored.groups i hi active
    · obtain ⟨first, second⟩ := anchored.metropolis t ht active
      rcases Bool.or_eq_true_iff.mp ends with same | same
      · exact eq_of_beq same ▸ first
      · exact eq_of_beq same ▸ second
  · intro named
    refine ⟨fun i hi active => ⟨?_, ?_⟩, fun i hi active => ?_, fun t ht active => ⟨?_, ?_⟩⟩
    · exact named _ (mentionsSite_iff.mpr
        (Or.inl ⟨i, hi, active, by simp [PairInteraction.mentions]⟩))
    · exact named _ (mentionsSite_iff.mpr
        (Or.inl ⟨i, hi, active, by simp [PairInteraction.mentions]⟩))
    · exact named _ (mentionsSite_iff.mpr (Or.inr (Or.inl ⟨i, hi, active, rfl⟩)))
    · exact named _ (mentionsSite_iff.mpr
        (Or.inr (Or.inr ⟨t, ht, active, by simp [MetropolisTransition.mentions]⟩)))
    · exact named _ (mentionsSite_iff.mpr
        (Or.inr (Or.inr ⟨t, ht, active, by simp [MetropolisTransition.mentions]⟩)))

theorem mentionsSite_stripped {particle k : Nat} :
    ((Conflict.removedParticle particle).settle r).mentionsSite k = r.mentionsSite k := by
  rw [Conflict.settle_removedParticle]
  simp [mentionsSite, List.any_map, Function.comp_def, Handler.stripPair, Handler.stripGroup,
    PairInteraction.isActive, PairInteraction.mentions, GroupInteraction.isActive]

theorem hasSite_modify {k j : Nat} (apart : k ≠ j) {f : Site → Site} (h : r.HasSite k) :
    HasSite { r with sites := r.sites.modify j f } k := by
  obtain ⟨s, hs, active⟩ := h
  refine ⟨s, ?_, active⟩
  rw [List.getElem?_modify, hs]
  simp [apart.symm]

end ReferenceData

namespace DataChange

/-- Changes of sites, of the particles on them, and of the symmetry between them. -/
def OnSites : DataChange → Prop
  | addSite _ | removeSite _ | removeParticle _ | setSpaceGroup _ => True
  | _ => False

variable {r edited : ReferenceData} {t : Tolerance} {conflicts : List Conflict}

theorem conflicts_removeParticle {particle : Nat}
    (h : (removeParticle particle).conflicts edited t = .ok conflicts) :
    conflicts = if edited.mentionsParticle particle then [.removedParticle particle] else [] :=
  (pure_ok_iff.mp h).symm

theorem conflicts_removeSite {site : Nat}
    (h : (removeSite site).conflicts edited t = .ok conflicts) :
    conflicts = if edited.mentionsSite site then [.removedSite site] else [] :=
  (pure_ok_iff.mp h).symm

theorem conflicts_addSite {site : Site}
    (h : (addSite site).conflicts edited t = .ok conflicts) :
    ∀ c ∈ conflicts, ∃ kept, c = .equivalentSites kept site.index := by
  obtain ⟨s, _, h⟩ := bind_ok_iff.mp h
  obtain rfl := pure_ok_iff.mp h
  intro c hc
  obtain ⟨kept, _, rfl⟩ := Option.map_eq_some_iff.mp (Option.mem_toList.mp hc)
  exact ⟨kept.index, rfl⟩

theorem conflicts_setSpaceGroup {entry : GroupEntry}
    (h : (setSpaceGroup entry).conflicts edited t = .ok conflicts) :
    ∃ s, edited.symmetry t = .ok s ∧
      conflicts = ReferenceData.equivalentSites s [] (edited.sites.filter (·.isActive)) := by
  obtain ⟨s, hs, h⟩ := bind_ok_iff.mp h
  exact ⟨s, hs, (pure_ok_iff.mp h).symm⟩

end DataChange

section Settled

open ReferenceData Conflict

variable {r edited : ReferenceData} {t : Tolerance} {conflicts : List Conflict}

theorem anchored_addSite {site : Site} (anchored : r.Anchored)
    (edits : (DataChange.addSite site).Edits r edited)
    (found : (DataChange.addSite site).conflicts edited t = .ok conflicts) :
    (conflicts.foldl (fun r c => c.settle r) edited).Anchored := by
  have newcomer := DataChange.conflicts_addSite found
  obtain ⟨next, rfl⟩ := edits
  obtain ⟨sites, settled, each⟩ := settle_equivalences
    (fun c hc => (newcomer c hc).imp fun kept same => ⟨_, same⟩)
    { r with sites := r.sites ++ [site] }
  rw [settled, anchored_iff]
  intro k named
  obtain ⟨s, hs, active⟩ := anchored_iff.mp anchored k named
  have inside := (List.getElem?_eq_some_iff.mp hs).1
  have stays : k ∉ duplicates conflicts := by
    intro gone
    obtain ⟨kept, hc⟩ := mem_duplicates.mp gone
    obtain ⟨_, same⟩ := newcomer _ hc
    have := (Conflict.equivalentSites.inj same).2
    omega
  refine ⟨s, ?_, active⟩
  rw [each, getElem?_append_of_some hs, Option.map_some, if_neg stays]

theorem anchored_removeSite {site : Nat} (anchored : r.Anchored)
    (edits : (DataChange.removeSite site).Edits r edited)
    (found : (DataChange.removeSite site).conflicts edited t = .ok conflicts) :
    (conflicts.foldl (fun r c => c.settle r) edited).Anchored := by
  obtain ⟨_, rfl⟩ := edits
  rw [DataChange.conflicts_removeSite found, anchored_iff]
  have apart : ∀ k, r.mentionsSite k → k ≠ site →
      HasSite { r with sites := r.sites.modify site Site.retired } k :=
    fun k named other => hasSite_modify other (anchored_iff.mp anchored k named)
  intro k named
  split at named
  · next mentioned =>
    obtain ⟨before, other⟩ := mentionsSite_settle named
    rw [if_pos mentioned, List.foldl_cons, List.foldl_nil, settle_removedSite]
    exact apart k before other
  · next unmentioned =>
    rw [if_neg unmentioned]
    refine apart k named ?_
    rintro rfl
    exact unmentioned named

theorem anchored_removeParticle {particle : Nat} (anchored : r.Anchored)
    (edits : (DataChange.removeParticle particle).Edits r edited)
    (found : (DataChange.removeParticle particle).conflicts edited t = .ok conflicts) :
    (conflicts.foldl (fun r c => c.settle r) edited).Anchored := by
  obtain ⟨_, rfl⟩ := edits
  rw [DataChange.conflicts_removeParticle found, anchored_iff]
  rw [anchored_iff] at anchored
  split
  · intro k named
    rw [List.foldl_cons, List.foldl_nil, mentionsSite_stripped] at named
    rw [List.foldl_cons, List.foldl_nil, settle_removedParticle]
    exact anchored k named
  · exact anchored

/-- The sites that a new space group makes redundant are retired, and nothing else is. -/
theorem anchored_setSpaceGroup_iff {entry : GroupEntry} (anchored : r.Anchored)
    (edits : (DataChange.setSpaceGroup entry).Edits r edited)
    (found : (DataChange.setSpaceGroup entry).conflicts edited t = .ok conflicts) :
    (conflicts.foldl (fun r c => c.settle r) edited).Anchored ↔
      ∀ k ∈ duplicates conflicts, r.mentionsSite k = false := by
  obtain rfl := edits
  obtain ⟨s, _, same⟩ := DataChange.conflicts_setSpaceGroup found
  obtain ⟨sites, settled, each⟩ := settle_equivalences (same ▸ equivalentSites_only)
    { r with spaceGroup := entry }
  rw [settled, anchored_iff]
  rw [anchored_iff] at anchored
  constructor
  · intro still k gone
    refine Bool.eq_false_iff.mpr fun named => ?_
    obtain ⟨x, hx, active⟩ := still k named
    rw [each] at hx
    obtain ⟨old, _, rfl⟩ := Option.map_eq_some_iff.mp hx
    rw [if_pos gone] at active
    cases active
  · intro unnamed k named
    obtain ⟨x, hx, active⟩ := anchored k named
    refine ⟨x, ?_, active⟩
    have stays : k ∉ duplicates conflicts := by
      intro gone
      exact absurd named (Bool.eq_false_iff.mp (unnamed k gone))
    rw [each, hx, Option.map_some, if_neg stays]

end Settled

namespace DataStore

open Conflict

variable {r : ReferenceData} {t : Tolerance} {change : DataChange} {report : ResolutionReport}
  {after : DataStore}

/-- After an accepted change of sites, particles or symmetry all active objects still have their
sites, except when the new space group gave up a site that one of them names. -/
theorem anchored_after_iff (anchored : r.Anchored) (kind : change.OnSites)
    (h : (DataStore.mk r .standard t).apply change = (.ok report, after)) :
    after.data.Anchored ↔ ∀ entry, change = .setSpaceGroup entry →
      ∀ k ∈ duplicates (report.resolved.map (·.1)), r.mentionsSite k = false := by
  obtain ⟨changed, _⟩ := apply_ok h
  obtain ⟨edited, conflicts, hedit, found, hdata, listed, _⟩ := changed_ok rfl changed
  have edits := DataChange.apply_ok_iff.mp hedit
  rw [listed, hdata]
  cases change with
  | addSite site => simp [anchored_addSite anchored edits found]
  | removeSite site => simp [anchored_removeSite anchored edits found]
  | removeParticle particle => simp [anchored_removeParticle anchored edits found]
  | setSpaceGroup entry =>
    rw [anchored_setSpaceGroup_iff anchored edits found]
    constructor
    · intro unnamed _ _
      exact unnamed
    · intro unnamed
      exact unnamed entry rfl
  | addParticle _ | addPair _ | addGroup _ | addKinetic _ | addSimulation _ => exact kind.elim

open ReferenceData in
theorem twoChains_not_anchored : ∃ entry report after, twoChains.Anchored ∧
    (DataStore.mk twoChains .standard (.ofWidth 1.0e-6)).apply (.setSpaceGroup entry) =
      (.ok report, after) ∧ ¬after.data.Anchored := by
  let entry : GroupEntry := ⟨2, "centered", ["x,y,z", "x+1/2,y+1/2,z+1/2"]⟩
  have anchored : twoChains.Anchored := by
    constructor <;> decide
  have found : ((DataStore.mk twoChains .standard (.ofWidth 1.0e-6)).changed
      (.setSpaceGroup entry)).toOption.any fun x =>
        decide (duplicates (x.2.resolved.map (·.1)) = [1]) := by decide +kernel
  obtain ⟨⟨data, report⟩, changed, listed⟩ := ok_of_any found
  have applied : (DataStore.mk twoChains .standard (.ofWidth 1.0e-6)).apply
      (.setSpaceGroup entry) = (.ok report, ⟨data, .standard, .ofWidth 1.0e-6⟩) := by
    unfold apply
    rw [changed]
  refine ⟨entry, report, _, anchored, applied, fun still => ?_⟩
  have kind : (DataChange.setSpaceGroup entry).OnSites := True.intro
  have unnamed := (anchored_after_iff anchored kind applied).mp still entry rfl 1
  rw [of_decide_eq_true listed] at unnamed
  exact absurd (unnamed (List.mem_singleton_self 1)) (by decide)

end DataStore

end CrystalModel
