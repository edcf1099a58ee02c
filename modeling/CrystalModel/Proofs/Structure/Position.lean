import CrystalModel.Proofs.Fallible
import CrystalModel.Proofs.Geometry.Encoder
import CrystalModel.Proofs.Symmetry.Dictionary
import CrystalModel.Structure.Position

/-! # The positions of a unit cell

Every listed position is an image of an active site, moved into the origin cell, and is not close
to any position before it. -/
namespace CrystalModel

theorem Symmetry.orbit_trimmed {s : Symmetry} {position v : Point} (h : v ∈ s.orbit position) :
    Fractional.Trimmed s.tolerance v := by
  obtain ⟨image, hi, rfl⟩ := List.mem_map.mp h
  rw [dictionary_eq] at hi
  have gathered := s.gathered_discovered (Fractional.trimPoint s.tolerance position)
    s.group.operations List.prefix_rfl
  obtain ⟨first, _, _, made, _⟩ := gathered.led image ((moveFront_perm _ _).mem_iff.mp hi)
  obtain ⟨op, _, made⟩ := Option.map_eq_some_iff.mp made
  exact ⟨_, made.symm⟩

namespace PositionList

/-- What holds of a list of positions while it is being filled. -/
structure Sound (s : Symmetry) (r : ReferenceData) (l : PositionList) : Prop where
  aligned : l.points.length = l.sites.length
  active : ∀ site ∈ l.sites, ∃ x ∈ r.sites.filter (·.isActive), x.index = site
  apart : l.points.Pairwise fun a b => s.tolerance.closePoints a b = false
  trimmed : ∀ v ∈ l.points, Fractional.Trimmed s.tolerance v

variable {s : Symmetry} {r : ReferenceData} {l m : PositionList}

theorem Sound.empty : Sound s r .empty := ⟨rfl, by simp [PositionList.empty],
  by simp [PositionList.empty], by simp [PositionList.empty]⟩

theorem Sound.addImage {site : Site} {v : Point} (h : Sound s r l)
    (hs : site ∈ r.sites.filter (·.isActive)) (hv : Fractional.Trimmed s.tolerance v)
    (added : PositionList.addImage s.tolerance site.index l v = .ok m) : Sound s r m := by
  unfold PositionList.addImage at added
  cases place : s.tolerance.placeOf l.points v with
  | some p => simp [place] at added
  | none =>
    rw [place] at added
    cases added
    have far := List.findIdx?_eq_none_iff.mp place
    refine ⟨by simp [h.aligned], ?_, ?_, ?_⟩
    · intro x hx
      rcases List.mem_append.mp hx with hx | hx
      · exact h.active x hx
      · exact ⟨site, hs, (List.mem_singleton.mp hx).symm⟩
    · exact pairwise_concat h.apart far
    · intro x hx
      rcases List.mem_append.mp hx with hx | hx
      · exact h.trimmed x hx
      · exact List.mem_singleton.mp hx ▸ hv

theorem Sound.addSite {site : Site} (h : Sound s r l) (hs : site ∈ r.sites.filter (·.isActive))
    (added : PositionList.addSite s r l site = .ok m) : Sound s r m := by
  unfold PositionList.addSite at added
  split at added
  · refine foldlM_ok_induction (motive := fun _ l => Sound s r l) added h ?_
    intro done v rest l l' eq ih step
    have hv : v ∈ s.orbit site.vector := by simp [eq]
    exact ih.addImage hs (Symmetry.orbit_trimmed hv) step
  · cases added

theorem sound_of_ofSites (h : ofSites s r = .ok l) : Sound s r l := by
  refine foldlM_ok_induction (motive := fun _ l => Sound s r l) h .empty ?_
  intro done site rest l l' eq ih step
  have hs : site ∈ r.sites.filter (·.isActive) := by simp only [eq, List.mem_append,
    List.mem_cons, true_or, or_true]
  exact ih.addSite hs step

end PositionList

end CrystalModel
