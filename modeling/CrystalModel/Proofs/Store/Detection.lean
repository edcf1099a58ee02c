import CrystalModel.Proofs.Reference.Validation
import CrystalModel.Proofs.Store.Change

/-! # Conflicts and what is left of them

Settled conflicts are gone: a particle that was taken out is mentioned nowhere, a removed site by
nothing active, and of the sites that stay none is an image of another one. -/
namespace CrystalModel

namespace Conflict

/-- The sites that are given up as images of others. -/
def duplicates (conflicts : List Conflict) : List Nat :=
  conflicts.filterMap fun c => match c with
    | .equivalentSites _ duplicate => some duplicate
    | _ => none

@[simp] theorem duplicates_cons {kept duplicate : Nat} {rest : List Conflict} :
    duplicates (.equivalentSites kept duplicate :: rest) = duplicate :: duplicates rest := rfl

@[simp] theorem duplicates_append {cs ds : List Conflict} :
    duplicates (cs ++ ds) = duplicates cs ++ duplicates ds := List.filterMap_append

@[simp] theorem duplicates_images {kept : Nat} {found : List Nat} :
    duplicates (found.map (.equivalentSites kept)) = found := by
  rw [duplicates, List.filterMap_map]
  exact List.filterMap_some

theorem mem_duplicates {conflicts : List Conflict} {k : Nat} :
    k ∈ duplicates conflicts ↔ ∃ kept, .equivalentSites kept k ∈ conflicts := by
  unfold duplicates
  rw [List.mem_filterMap]
  constructor
  · rintro ⟨c, hc, same⟩
    cases c with
    | equivalentSites kept duplicate =>
      obtain rfl := Option.some.inj same
      exact ⟨kept, hc⟩
    | _ => cases same
  · rintro ⟨kept, hc⟩
    exact ⟨_, hc, rfl⟩

theorem settle_equivalences {conflicts : List Conflict}
    (only : ∀ c ∈ conflicts, ∃ kept duplicate, c = .equivalentSites kept duplicate)
    (r : ReferenceData) :
    ∃ sites : List Site, conflicts.foldl (fun r c => c.settle r) r = { r with sites } ∧
      ∀ k : Nat, sites[k]? =
        r.sites[k]?.map fun s => if k ∈ duplicates conflicts then s.retired else s := by
  induction conflicts generalizing r with
  | nil => exact ⟨r.sites, rfl, fun k => by simp [duplicates]⟩
  | cons c rest ih =>
    obtain ⟨kept, duplicate, rfl⟩ := only c List.mem_cons_self
    rw [List.foldl_cons, settle_equivalentSites]
    obtain ⟨sites, settled, each⟩ := ih (fun c hc => only c (List.mem_cons_of_mem _ hc)) _
    refine ⟨sites, settled, fun k => ?_⟩
    rw [each, List.getElem?_modify]
    simp only [duplicates_cons, List.mem_cons, Option.map_eq_map, Option.map_map]
    refine Option.map_congr fun s _ => ?_
    by_cases here : duplicate = k
    · by_cases later : k ∈ duplicates rest <;> simp [here, later, Site.retired]
    · by_cases later : k ∈ duplicates rest <;> simp [here, Ne.symm here, later]

end Conflict

namespace ReferenceData

variable {r : ReferenceData}

section Sites

theorem mentionsSite_iff {k : Nat} : r.mentionsSite k ↔
    (∃ i ∈ r.pairInteractions, i.isActive ∧ i.mentions k) ∨
      (∃ i ∈ r.groupInteractions, i.isActive ∧ i.centerSite = k) ∨
      ∃ t ∈ r.metropolisTransitions, t.isActive ∧ t.mentions k := by
  simp [mentionsSite, or_assoc]

theorem any_retired {α : Type} {xs : List α} {active : α → Bool} {names drops : α → Bool}
    {retired : α → α} (off : ∀ x, active (retired x) = false)
    (h : (xs.map fun x => if active x && drops x then retired x else x).any fun x =>
      active x && names x) :
    ∃ x ∈ xs, active x ∧ names x ∧ drops x = false := by
  obtain ⟨y, hy, named⟩ := List.any_eq_true.mp h
  obtain ⟨x, hx, rfl⟩ := List.mem_map.mp hy
  by_cases gone : active x && drops x
  · rw [if_pos gone, off] at named
    cases named
  · rw [if_neg gone] at named
    obtain ⟨on, named⟩ := Bool.and_eq_true_iff.mp named
    exact ⟨x, hx, on, named, by simpa [on] using gone⟩

/-- What still names a site after one has been given up was there before and names another. -/
theorem mentionsSite_settle {k site : Nat}
    (h : ((Conflict.removedSite site).settle r).mentionsSite k) :
    r.mentionsSite k ∧ k ≠ site := by
  rw [Conflict.settle_removedSite] at h
  unfold mentionsSite at h
  rcases Bool.or_eq_true_iff.mp h with h | metropolis
  · rcases Bool.or_eq_true_iff.mp h with pair | group
    · obtain ⟨i, hi, active, named, other⟩ := any_retired (fun _ => rfl) pair
      refine ⟨mentionsSite_iff.mpr (Or.inl ⟨i, hi, active, named⟩), ?_⟩
      rintro rfl
      exact absurd named (by simp [other])
    · obtain ⟨i, hi, active, named, other⟩ := any_retired (fun _ => rfl) group
      refine ⟨mentionsSite_iff.mpr (Or.inr (Or.inl ⟨i, hi, active, by simpa using named⟩)), ?_⟩
      rintro rfl
      exact absurd named (by simp [other])
  · obtain ⟨t, ht, active, named, other⟩ := any_retired (fun _ => rfl) metropolis
    refine ⟨mentionsSite_iff.mpr (Or.inr (Or.inr ⟨t, ht, active, named⟩)), ?_⟩
    rintro rfl
    exact absurd named (by simp [other])

end Sites

section Particles

theorem any_filter_not {α : Type} {xs : List α} {p : α → Bool} :
    (xs.filter (!p ·)).any p = false := by
  rw [List.any_eq_false]
  intro x hx
  simpa using (List.mem_filter.mp hx).2

theorem mentionsParticle_settle {particle : Nat} :
    ((Conflict.removedParticle particle).settle r).mentionsParticle particle = false := by
  rw [Conflict.settle_removedParticle]
  simp only [mentionsParticle, Handler.stripSet, Handler.stripPair, Handler.stripGroup,
    List.any_map, Bool.or_eq_false_iff, List.any_eq_false, Function.comp_apply, any_filter_not]
  simp

end Particles

section Images

variable {s : Symmetry}

theorem mem_imagesOf {known : List Nat} {kept : Site} {others : List Site} {k : Nat} :
    k ∈ imagesOf s known kept others ↔
      k ∉ known ∧ ∃ other ∈ others, other.index = k ∧ isImage s kept other := by
  suffices ∀ found, k ∈ others.foldl (fun found other =>
      if !(known ++ found).contains other.index && isImage s kept other then found ++ [other.index]
      else found) found ↔
      k ∈ found ∨ k ∉ known ∧ ∃ other ∈ others, other.index = k ∧ isImage s kept other by
    simpa [imagesOf] using this []
  induction others with
  | nil => simp
  | cons other rest ih =>
    intro found
    rw [List.foldl_cons, ih, List.exists_mem_cons_iff]
    split
    · next new =>
      simp only [Bool.and_eq_true, Bool.not_eq_true', List.contains_eq_mem,
        decide_eq_false_iff_not, List.mem_append, not_or] at new
      grind
    · next seen =>
      simp only [Bool.and_eq_true, Bool.not_eq_true', List.contains_eq_mem,
        decide_eq_false_iff_not, List.mem_append, not_or] at seen
      grind

theorem equivalentSites_only {known : List Nat} {sites : List Site} :
    ∀ c ∈ equivalentSites s known sites, ∃ kept duplicate, c = .equivalentSites kept duplicate := by
  induction sites generalizing known with
  | nil => simp [equivalentSites]
  | cons kept others ih =>
    intro c hc
    rw [equivalentSites] at hc
    split at hc
    · exact ih c hc
    · rcases List.mem_append.mp hc with hc | hc
      · obtain ⟨duplicate, _, rfl⟩ := List.mem_map.mp hc
        exact ⟨_, _, rfl⟩
      · exact ih c hc

theorem duplicates_listed {known : List Nat} {sites : List Site} {k : Nat}
    (h : k ∈ Conflict.duplicates (equivalentSites s known sites)) :
    k ∉ known ∧ ∃ site ∈ sites.tail, site.index = k := by
  induction sites generalizing known with
  | nil => simp [equivalentSites, Conflict.duplicates] at h
  | cons kept others ih =>
    rw [equivalentSites] at h
    have behind : ∀ {known'}, k ∈ Conflict.duplicates (equivalentSites s known' others) →
        k ∉ known' ∧ ∃ site ∈ others, site.index = k := by
      intro known' h
      obtain ⟨new, site, hsite, same⟩ := ih h
      exact ⟨new, site, List.mem_of_mem_tail hsite, same⟩
    split at h
    · exact behind h
    · rw [Conflict.duplicates_append, Conflict.duplicates_images] at h
      rcases List.mem_append.mp h with h | h
      · obtain ⟨new, other, hother, same, _⟩ := mem_imagesOf.mp h
        exact ⟨new, other, hother, same⟩
      · obtain ⟨new, site, hsite, same⟩ := behind h
        exact ⟨fun old => new (List.mem_append_left _ old), site, hsite, same⟩

theorem imagesOf_left {known gone : List Nat} {kept : Site} {others : List Site}
    (given : ∀ site ∈ others, site.index ∈ known ∨ site.index ∈ imagesOf s known kept others →
      site.index ∈ gone) :
    imagesOf s [] kept (others.filter fun site => !gone.contains site.index) = [] := by
  refine List.eq_nil_iff_forall_not_mem.mpr fun k hk => ?_
  obtain ⟨_, other, hother, rfl, image⟩ := mem_imagesOf.mp hk
  obtain ⟨hother, left⟩ := List.mem_filter.mp hother
  have left : other.index ∉ gone := by simpa using left
  refine left (given other hother ?_)
  by_cases known : other.index ∈ known
  · exact Or.inl known
  · exact Or.inr (mem_imagesOf.mpr ⟨known, other, hother, rfl, image⟩)

/-- Among the sites that are left without the duplicates there are no equivalent ones. -/
theorem equivalentSites_left {known gone : List Nat} {sites : List Site}
    (distinct : (sites.map (·.index)).Nodup)
    (images : ∀ site ∈ sites, site.index ∈ gone ↔
      site.index ∈ known ∨ site.index ∈ Conflict.duplicates (equivalentSites s known sites)) :
    equivalentSites s [] (sites.filter fun site => !gone.contains site.index) = [] := by
  induction sites generalizing known with
  | nil => rfl
  | cons kept others ih =>
    obtain ⟨alone, distinct⟩ := List.nodup_cons.mp distinct
    have here := images kept List.mem_cons_self
    have later := fun site h => images site (List.mem_cons_of_mem kept h)
    rw [equivalentSites] at here later
    by_cases old : known.contains kept.index
    · simp only [old, if_true] at here later
      have dropped : kept.index ∈ gone := here.mpr (Or.inl (List.contains_iff_mem.mp old))
      rw [List.filter_cons_of_neg (by simp [dropped])]
      exact ih distinct later
    · simp only [old, Bool.false_eq_true, if_false, Conflict.duplicates_append,
        Conflict.duplicates_images, List.mem_append] at here later
      have stays : kept.index ∉ gone := by
        intro dropped
        rcases here.mp dropped with h | h | h
        · exact old (List.contains_iff_mem.mpr h)
        · obtain ⟨_, other, hother, same, _⟩ := mem_imagesOf.mp h
          exact alone (List.mem_map.mpr ⟨other, hother, same⟩)
        · obtain ⟨_, other, hother, same⟩ := duplicates_listed h
          exact alone (List.mem_map.mpr ⟨other, List.mem_of_mem_tail hother, same⟩)
      have images := imagesOf_left fun site hsite given =>
        (later site hsite).mpr (given.imp_right Or.inl)
      rw [List.filter_cons_of_pos (by simpa using stays), equivalentSites]
      simp only [List.contains_nil, Bool.false_eq_true, if_false, images, List.map_nil,
        List.nil_append]
      have sorted : ∀ site ∈ others, site.index ∈ gone ↔
          site.index ∈ known ++ imagesOf s known kept others ∨ site.index ∈ Conflict.duplicates
            (equivalentSites s (known ++ imagesOf s known kept others) others) := by
        intro site hsite
        rw [later site hsite, List.mem_append, or_assoc]
      exact ih distinct sorted

end Images

end ReferenceData

end CrystalModel
