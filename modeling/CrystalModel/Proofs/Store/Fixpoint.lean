import CrystalModel.Proofs.Store.References

/-! # Resolved changes leave nothing to resolve

A removal or a new space group that was taken over finds no conflict in the data it led to, and
taking it over once more changes nothing. -/
namespace CrystalModel

open Conflict ReferenceData

theorem modify_again {α : Type} (f : α → α) (still : ∀ x, f (f x) = f x) (xs : List α) (k : Nat) :
    (xs.modify k f).modify k f = xs.modify k f := by
  rw [List.modify_modify_eq]
  congr 1
  funext x
  exact still x

namespace ReferenceData

theorem sites_left {sites sites' : List Site} {gone : List Nat}
    (placed : sites.map (·.index) = List.range sites.length)
    (each : ∀ k : Nat, sites'[k]? = sites[k]?.map fun s => if k ∈ gone then s.retired else s) :
    sites'.filter (·.isActive) =
      (sites.filter (·.isActive)).filter fun s => !gone.contains s.index := by
  have same : sites' = sites.map fun s => if s.index ∈ gone then s.retired else s := by
    refine List.ext_getElem? fun k => ?_
    rw [each, List.getElem?_map]
    refine Option.map_congr fun s hs => ?_
    rw [place_of_numbered placed hs]
  rw [same]
  clear same each placed
  induction sites with
  | nil => rfl
  | cons s rest ih =>
    by_cases out : s.index ∈ gone
    · by_cases active : s.isActive <;> simp [out, active, ih]
    · by_cases active : s.isActive <;> simp [out, active, ih]

end ReferenceData

namespace DataStore

variable {s : DataStore} {change : DataChange}

/-- A change that the data already contain and that runs into no conflict. -/
theorem apply_of_settled (edits : change.Edits s.data s.data)
    (found : change.conflicts s.data s.tolerance = .ok []) :
    s.apply change = (.ok .empty, s) := by
  have changed : s.changed change = .ok (s.data, .empty) := by
    unfold changed
    rw [DataChange.apply_ok_iff.mpr edits]
    change ((change.conflicts s.data s.tolerance).mapError BuildError.symmetry >>= _) = _
    rw [found]
    rfl
  unfold apply
  rw [changed]

end DataStore

section Settled

variable {r edited r' : ReferenceData} {t : Tolerance} {conflicts : List Conflict}

theorem edits_removeParticle {particle : Nat} {p : Particle}
    (held : r.particles[particle]? = some p) (void : p.isVoid = false)
    (gone : r'.particles = r.particles.modify particle Particle.retired) :
    (DataChange.removeParticle particle).Edits r' r' := by
  refine ⟨⟨p.retired, ?_, void⟩, ?_⟩
  · rw [gone, List.getElem?_modify, held]
    simp
  · rw [gone, modify_again Particle.retired fun _ => rfl, ← gone]

theorem edits_removeSite {site : Nat} (inside : site < r.sites.length)
    (gone : r'.sites = r.sites.modify site Site.retired) :
    (DataChange.removeSite site).Edits r' r' := by
  constructor
  · rw [gone, List.length_modify]
    exact inside
  · rw [gone, modify_again Site.retired fun _ => rfl, ← gone]

theorem settled_removeParticle {particle : Nat}
    (edits : (DataChange.removeParticle particle).Edits r edited)
    (found : (DataChange.removeParticle particle).conflicts edited t = .ok conflicts)
    (final : r' = conflicts.foldl (fun r c => c.settle r) edited) :
    (DataChange.removeParticle particle).Edits r' r' ∧
      (DataChange.removeParticle particle).conflicts r' t = .ok [] := by
  obtain ⟨⟨p, held, void⟩, rfl⟩ := edits
  rw [DataChange.conflicts_removeParticle found] at final
  suffices r'.particles = r.particles.modify particle Particle.retired ∧
      r'.mentionsParticle particle = false by
    obtain ⟨gone, unmentioned⟩ := this
    refine ⟨edits_removeParticle held void gone, ?_⟩
    simp only [DataChange.conflicts, unmentioned]
    rfl
  split at final
  · rw [List.foldl_cons, List.foldl_nil] at final
    subst final
    refine ⟨?_, mentionsParticle_settle⟩
    rw [settle_removedParticle]
  · next unmentioned =>
    subst final
    exact ⟨rfl, Bool.eq_false_iff.mpr unmentioned⟩

theorem settled_removeSite {site : Nat}
    (edits : (DataChange.removeSite site).Edits r edited)
    (found : (DataChange.removeSite site).conflicts edited t = .ok conflicts)
    (final : r' = conflicts.foldl (fun r c => c.settle r) edited) :
    (DataChange.removeSite site).Edits r' r' ∧
      (DataChange.removeSite site).conflicts r' t = .ok [] := by
  obtain ⟨inside, rfl⟩ := edits
  rw [DataChange.conflicts_removeSite found] at final
  suffices r'.sites = r.sites.modify site Site.retired ∧ r'.mentionsSite site = false by
    obtain ⟨gone, unmentioned⟩ := this
    refine ⟨edits_removeSite inside gone, ?_⟩
    simp only [DataChange.conflicts, unmentioned]
    rfl
  split at final
  · rw [List.foldl_cons, List.foldl_nil] at final
    subst final
    constructor
    · rw [settle_removedSite]
    · refine Bool.eq_false_iff.mpr fun named => ?_
      exact (mentionsSite_settle named).2 rfl
  · next unmentioned =>
    subst final
    exact ⟨rfl, Bool.eq_false_iff.mpr unmentioned⟩

theorem settled_setSpaceGroup {entry : GroupEntry}
    (placed : r.sites.map (·.index) = List.range r.sites.length)
    (edits : (DataChange.setSpaceGroup entry).Edits r edited)
    (found : (DataChange.setSpaceGroup entry).conflicts edited t = .ok conflicts)
    (final : r' = conflicts.foldl (fun r c => c.settle r) edited) :
    (DataChange.setSpaceGroup entry).Edits r' r' ∧
      (DataChange.setSpaceGroup entry).conflicts r' t = .ok [] := by
  obtain rfl := edits
  obtain ⟨s, hs, same⟩ := DataChange.conflicts_setSpaceGroup found
  obtain ⟨sites, settled, each⟩ := settle_equivalences (same ▸ equivalentSites_only)
    { r with spaceGroup := entry }
  rw [settled] at final
  subst final
  refine ⟨rfl, ?_⟩
  have distinct : ((r.sites.filter (·.isActive)).map (·.index)).Nodup := by
    have indices : (r.sites.map (·.index)).Nodup := placed ▸ List.nodup_range
    exact indices.sublist (List.filter_sublist.map _)
  have none_left : equivalentSites s [] (sites.filter (·.isActive)) = [] := by
    rw [sites_left placed each, same]
    exact equivalentSites_left distinct fun site _ =>
      ⟨Or.inr, fun h => h.resolve_left List.not_mem_nil⟩
  have conflicts_left : (DataChange.setSpaceGroup entry).conflicts
      { r with spaceGroup := entry, sites } t =
        .ok (equivalentSites s [] (sites.filter (·.isActive))) := by
    change (ReferenceData.symmetry { r with spaceGroup := entry } t >>= _) = _
    rw [hs]
    rfl
  rw [conflicts_left, none_left]

end Settled

namespace DataStore

variable {r : ReferenceData} {t : Tolerance} {change : DataChange} {report : ResolutionReport}
  {after : DataStore}

/-- A removal or a new space group that was accepted leaves data in which it finds no conflict;
applying it once more succeeds with a clean report and changes nothing. -/
theorem apply_settles (placed : r.misplaced? = none)
    (kind : (∃ particle, change = .removeParticle particle) ∨ (∃ site, change = .removeSite site) ∨
      ∃ entry, change = .setSpaceGroup entry)
    (h : (DataStore.mk r .standard t).apply change = (.ok report, after)) :
    change.conflicts after.data t = .ok [] ∧ after.apply change = (.ok .empty, after) ∧
      ResolutionReport.empty.isClean := by
  obtain ⟨changed, store⟩ := apply_ok h
  obtain ⟨edited, conflicts, hedit, found, final, _⟩ := changed_ok rfl changed
  have edits := DataChange.apply_ok_iff.mp hedit
  have numbered := misplaced?_none_iff.mp placed
  have settled : change.Edits after.data after.data ∧ change.conflicts after.data t = .ok [] := by
    rcases kind with ⟨particle, rfl⟩ | ⟨site, rfl⟩ | ⟨entry, rfl⟩
    · exact settled_removeParticle edits found final
    · exact settled_removeSite edits found final
    · exact settled_setSpaceGroup numbered.sites edits found final
  have tolerance : after.tolerance = t := by rw [store]
  refine ⟨settled.2, ?_, rfl⟩
  exact apply_of_settled settled.1 (tolerance ▸ settled.2)

open ReferenceData in
theorem twoChains_settles : ∃ report after,
    (DataStore.mk twoChains .standard (.ofWidth 1.0e-6)).apply (.removeSite 1) =
      (.ok report, after) ∧
    report.resolved.map (·.2.length) = [2] ∧
    (DataChange.removeSite 1).conflicts after.data (.ofWidth 1.0e-6) = .ok [] ∧
    after.apply (.removeSite 1) = (.ok .empty, after) := by
  refine ⟨_, _, rfl, rfl, ?_⟩
  obtain ⟨none_left, again, _⟩ := @apply_settles twoChains (.ofWidth 1.0e-6) (.removeSite 1) _ _ rfl
    (Or.inr (Or.inl ⟨1, rfl⟩)) rfl
  exact ⟨none_left, again⟩

end DataStore

end CrystalModel
