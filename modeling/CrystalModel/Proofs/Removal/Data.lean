import CrystalModel.Proofs.Store.History
import CrystalModel.Proofs.Store.Fixpoint

/-! # Data without one of their sites

What a site that is removed leaves behind: the other sites, and of the active objects those that do
not name it. -/
namespace CrystalModel

open ReferenceData

theorem filter_retired {α : Type} {active unwanted : α → Bool} {retire : α → α}
    (off : ∀ x, active (retire x) = false) (xs : List α) :
    (xs.map fun x => if active x && unwanted x then retire x else x).filter active =
      (xs.filter active).filter fun x => !unwanted x := by
  have stays : active ∘ (fun x => if active x && unwanted x then retire x else x) =
      fun x => !unwanted x && active x := by
    funext x
    rw [Function.comp_apply]
    cases here : active x <;> cases out : unwanted x <;> simp [here, off]
  rw [List.filter_map, List.filter_filter, stays]
  refine (List.map_congr_left fun x hx => ?_).trans (List.map_id _)
  have kept := (List.mem_filter.mp hx).2
  rw [Bool.and_eq_true, Bool.not_eq_true'] at kept
  simp [kept.1]

/-- A site is retired, and with it the active objects that name it. -/
structure SiteRemoved (r r' : ReferenceData) (gone : Nat) : Prop where
  frame : r' = { r with
    sites := r'.sites, pairInteractions := r'.pairInteractions,
    groupInteractions := r'.groupInteractions, metropolisTransitions := r'.metropolisTransitions }
  sites : r'.sites = r.sites.modify gone Site.retired
  pairs : r'.pairInteractions.filter (·.isActive) =
    (r.pairInteractions.filter (·.isActive)).filter (!·.mentions gone)
  groups : r'.groupInteractions.filter (·.isActive) =
    (r.groupInteractions.filter (·.isActive)).filter (·.centerSite != gone)
  metropolis : r'.metropolisTransitions.filter (·.isActive) =
    (r.metropolisTransitions.filter (·.isActive)).filter (!·.mentions gone)

namespace SiteRemoved

variable {r r' : ReferenceData} {gone : Nat}

theorem of_apply {t : Tolerance} {report : ResolutionReport} {after : DataStore}
    (h : (DataStore.mk r .standard t).apply (.removeSite gone) = (.ok report, after)) :
    SiteRemoved r after.data gone := by
  obtain ⟨changed, _⟩ := DataStore.apply_ok h
  obtain ⟨edited, conflicts, hedit, found, final, _⟩ := DataStore.changed_ok rfl changed
  obtain ⟨_, rfl⟩ := DataChange.apply_ok_iff.mp hedit
  rw [DataChange.conflicts_removeSite found] at final
  split at final
  · rw [List.foldl_cons, List.foldl_nil, Conflict.settle_removedSite] at final
    rw [final]
    exact ⟨rfl, rfl, filter_retired (fun _ => rfl) _, filter_retired (fun _ => rfl) _,
      filter_retired (fun _ => rfl) _⟩
  · next unnamed =>
    rw [List.foldl_nil] at final
    rw [final]
    have others : ∀ {α : Type} {active names : α → Bool} {xs : List α},
        (∀ x ∈ xs, active x → ¬names x) →
          xs.filter active = (xs.filter active).filter (!names ·) := by
      intro α active names xs spared
      refine (List.filter_eq_self.mpr fun x hx => ?_).symm
      obtain ⟨hx, on⟩ := List.mem_filter.mp hx
      simpa using spared x hx on
    rw [mentionsSite_iff] at unnamed
    refine ⟨rfl, rfl, others ?_, others ?_, others ?_⟩
    · intro i hi active names
      exact unnamed (Or.inl ⟨i, hi, active, names⟩)
    · intro i hi active center
      exact unnamed (Or.inr (Or.inl ⟨i, hi, active, eq_of_beq center⟩))
    · intro t ht active names
      exact unnamed (Or.inr (Or.inr ⟨t, ht, active, names⟩))

variable (h : SiteRemoved r r' gone)

include h

theorem cell_eq : r'.cell = r.cell := by rw [h.frame]

theorem particles_eq : r'.particles = r.particles := by rw [h.frame]

theorem particleSets_eq : r'.particleSets = r.particleSets := by rw [h.frame]

theorem symmetry_eq (t : Tolerance) : r'.symmetry t = r.symmetry t := by
  rw [h.frame]
  rfl

theorem site_eq {k : Nat} (other : k ≠ gone) : r'.sites[k]? = r.sites[k]? := by
  rw [h.sites, List.getElem?_modify]
  simp [other.symm]

theorem activeSites (placed : r.sites.map (·.index) = List.range r.sites.length) :
    r'.sites.filter (·.isActive) =
      (r.sites.filter (·.isActive)).filter fun s => s.index != gone := by
  have each : ∀ k : Nat, r'.sites[k]? =
      r.sites[k]?.map fun s => if k ∈ [gone] then s.retired else s := by
    intro k
    by_cases here : k = gone
    · simp [h.sites, here]
    · simp [h.site_eq here, here]
  rw [sites_left placed each]
  refine List.filter_congr fun s _ => ?_
  by_cases same : s.index = gone <;> simp [same]

end SiteRemoved

end CrystalModel
