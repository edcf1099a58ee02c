import CrystalModel.Proofs.Store.Fixpoint
import Mathlib.Data.List.Nodup

/-! # Redundant sites

A new space group gives up the sites that it makes images of others. Whether a site is redundant is
judged by the sites in front of it that stay: an image of an image that was given up counts only
when it is an image of a site that stays as well. -/
namespace CrystalModel

open Conflict ReferenceData

namespace ReferenceData

variable {s : Symmetry} {known : List Nat} {first : Site} {rest : List Site} {k : Nat}

/-- Out before the comparison of the sites, or out by it. -/
def GivenUp (s : Symmetry) (known : List Nat) (sites : List Site) (k : Nat) : Prop :=
  k ∈ known ∨ k ∈ duplicates (equivalentSites s known sites)

theorem givenUp_of_known (out : first.index ∈ known) :
    GivenUp s known (first :: rest) k ↔ GivenUp s known rest k := by
  rw [GivenUp, equivalentSites, if_pos (List.contains_iff_mem.mpr out), GivenUp]

theorem givenUp_of_kept (stays : first.index ∉ known) :
    GivenUp s known (first :: rest) k ↔
      GivenUp s (known ++ imagesOf s known first rest) rest k := by
  rw [GivenUp, equivalentSites, if_neg (by simpa using stays), duplicates_append,
    duplicates_images, List.mem_append, ← or_assoc, ← List.mem_append, GivenUp]

theorem givenUp_head_iff (distinct : ((first :: rest).map (·.index)).Nodup) :
    GivenUp s known (first :: rest) first.index ↔ first.index ∈ known := by
  constructor
  · intro h
    rcases h with out | out
    · exact out
    · obtain ⟨_, other, hother, same⟩ := duplicates_listed out
      exact absurd (List.mem_map.mpr ⟨other, hother, same⟩) (List.nodup_cons.mp distinct).1
  · intro out
    exact Or.inl out

theorem mem_imagesOf_iff {site : Site} (distinct : (rest.map (·.index)).Nodup) (hs : site ∈ rest) :
    site.index ∈ imagesOf s known first rest ↔ site.index ∉ known ∧ isImage s first site := by
  rw [mem_imagesOf]
  apply and_congr_right
  intro _
  constructor
  · intro h
    obtain ⟨other, hother, same, image⟩ := h
    rwa [List.inj_on_of_nodup_map distinct hother hs same] at image
  · intro image
    exact ⟨site, hs, rfl, image⟩

/-- The comparison gives a site up for a site in front of it that stays, and for nothing else. The
induction is on the sites in front; each of them that stays adds its images to those known. -/
theorem givenUp_iff {before behind : List Site} {site : Site}
    (distinct : ((before ++ site :: behind).map (·.index)).Nodup) :
    GivenUp s known (before ++ site :: behind) site.index ↔
      site.index ∈ known ∨ ∃ kept ∈ before,
        ¬GivenUp s known (before ++ site :: behind) kept.index ∧ isImage s kept site := by
  induction before generalizing known with
  | nil => exact (givenUp_head_iff distinct).trans (by simp)
  | cons first rest ih =>
    rw [List.cons_append] at distinct ⊢
    have apart := (List.nodup_cons.mp distinct).2
    rw [List.exists_mem_cons_iff, givenUp_head_iff distinct]
    by_cases out : first.index ∈ known
    · simp only [givenUp_of_known out, out, not_true, false_and, false_or]
      exact ih apart
    · have here : site ∈ rest ++ site :: behind := by simp
      simp only [givenUp_of_kept out, out, not_false_iff, true_and]
      rw [ih apart, List.mem_append, mem_imagesOf_iff apart here]
      by_cases old : site.index ∈ known
      · simp [old]
      · simp [old]

theorem split_at {α : Type} {xs : List α} {x : α} (hk : xs[k]? = some x) :
    xs = xs.take k ++ x :: xs.drop (k + 1) := by
  obtain ⟨inside, rfl⟩ := List.getElem?_eq_some_iff.mp hk
  rw [List.getElem_cons_drop, List.take_append_drop]

theorem mem_duplicates_iff {sites : List Site} {site : Site}
    (placed : sites.map (·.index) = List.range sites.length) (hk : sites[k]? = some site) :
    k ∈ duplicates (equivalentSites s [] (sites.filter (·.isActive))) ↔
      site.isActive ∧ ∃ j < k, ∃ kept, sites[j]? = some kept ∧ kept.isActive ∧
        j ∉ duplicates (equivalentSites s [] (sites.filter (·.isActive))) ∧
        isImage s kept site := by
  have distinct : ((sites.filter (·.isActive)).map (·.index)).Nodup := by
    have indices : (sites.map (·.index)).Nodup := placed ▸ List.nodup_range
    exact indices.sublist (List.filter_sublist.map _)
  have number := place_of_numbered placed hk
  by_cases active : site.isActive
  · have parts : sites.filter (·.isActive) = (sites.take k).filter (·.isActive) ++
        site :: (sites.drop (k + 1)).filter (·.isActive) := by
      conv_lhs => rw [split_at hk]
      rw [List.filter_append, List.filter_cons_of_pos active]
    rw [parts] at distinct
    have judged : GivenUp s [] _ site.index ↔ _ := givenUp_iff distinct
    rw [← parts, number] at judged
    simp only [GivenUp, List.not_mem_nil, false_or] at judged
    rw [judged]
    constructor
    · intro h
      obtain ⟨kept, hkept, stays, image⟩ := h
      obtain ⟨hkept, on⟩ := List.mem_filter.mp hkept
      obtain ⟨j, less, rfl⟩ := List.mem_take_iff_getElem.mp hkept
      have hj := List.getElem?_eq_getElem (Nat.lt_of_lt_of_le less (Nat.min_le_right _ _))
      rw [place_of_numbered placed hj] at stays
      exact ⟨active, j, Nat.lt_of_lt_of_le less (Nat.min_le_left _ _), _, hj, on, stays, image⟩
    · intro h
      obtain ⟨_, j, less, kept, hj, on, stays, image⟩ := h
      rw [← place_of_numbered placed hj] at stays
      have front : (sites.take k)[j]? = some kept := by rw [List.getElem?_take_of_lt less, hj]
      exact ⟨kept, List.mem_filter.mpr ⟨List.mem_of_getElem? front, on⟩, stays, image⟩
  · constructor
    · intro h
      obtain ⟨_, other, hother, rfl⟩ := duplicates_listed h
      obtain ⟨hother, on⟩ := List.mem_filter.mp (List.mem_of_mem_tail hother)
      obtain ⟨j, hj⟩ := List.mem_iff_getElem?.mp hother
      rw [place_of_numbered placed hj, hj, Option.some.injEq] at hk
      exact absurd (hk ▸ on) active
    · intro h
      exact absurd h.1 active

/-- In front of a site that takes part in builds stands one that it is an image of, and that takes
part in builds before a change and after it. -/
def Redundant (s : Symmetry) (r r' : ReferenceData) (k : Nat) (site : Site) : Prop :=
  ∃ j < k, ∃ kept, r.sites[j]? = some kept ∧ kept.isActive ∧ r'.sites[j]? = some kept ∧
    s.tolerance.hasPoint (s.orbit kept.vector) (Fractional.trimPoint s.tolerance site.vector)

/-- A change that gives up the redundant sites and touches no other. -/
structure GivesUpRedundant (s : Symmetry) (r r' : ReferenceData) : Prop where
  length : r'.sites.length = r.sites.length
  retired_iff : ∀ (k : Nat) (site : Site), r.sites[k]? = some site → site.isActive →
    (r'.sites[k]? = some site.retired ↔ Redundant s r r' k site)
  unchanged : ∀ (k : Nat) (site : Site), r.sites[k]? = some site →
    ¬(site.isActive ∧ Redundant s r r' k site) → r'.sites[k]? = some site

theorem retired_ne {site : Site} (active : site.isActive) : site.retired ≠ site := by
  intro same
  rw [← same, Site.isActive_retired] at active
  cases active

variable {r r' : ReferenceData} {gone : List Nat} {site : Site}
  (each : ∀ k : Nat, r'.sites[k]? = r.sites[k]?.map fun x => if k ∈ gone then x.retired else x)

include each

theorem stays_iff (hk : r.sites[k]? = some site) (active : site.isActive) :
    r'.sites[k]? = some site ↔ k ∉ gone := by
  rw [each, hk, Option.map_some, Option.some.injEq]
  by_cases out : k ∈ gone
  · rw [if_pos out]
    exact iff_of_false (retired_ne active) (not_not_intro out)
  · rw [if_neg out]
    exact iff_of_true rfl out

theorem retired_iff (hk : r.sites[k]? = some site) (active : site.isActive) :
    r'.sites[k]? = some site.retired ↔ k ∈ gone := by
  rw [each, hk, Option.map_some, Option.some.injEq]
  by_cases out : k ∈ gone
  · rw [if_pos out]
    exact iff_of_true rfl out
  · rw [if_neg out]
    exact iff_of_false (retired_ne active).symm out

theorem givesUpRedundant (judged : ∀ (k : Nat) (site : Site), r.sites[k]? = some site →
      (k ∈ gone ↔ site.isActive ∧ ∃ j < k, ∃ kept, r.sites[j]? = some kept ∧ kept.isActive ∧
        j ∉ gone ∧ isImage s kept site)) : GivesUpRedundant s r r' := by
  have redundant : ∀ (k : Nat) (site : Site), r.sites[k]? = some site →
      (k ∈ gone ↔ site.isActive ∧ Redundant s r r' k site) := by
    intro k site hk
    rw [judged k site hk]
    refine and_congr_right fun _ => exists_congr fun j => and_congr_right fun _ =>
      exists_congr fun kept => and_congr_right fun hj => and_congr_right fun active => ?_
    rw [stays_iff each hj active]
    rfl
  constructor
  · apply Nat.le_antisymm
    · rw [← List.getElem?_eq_none_iff, each, List.getElem?_eq_none (Nat.le_refl _), Option.map_none]
    · rw [← List.getElem?_eq_none_iff, ← Option.map_eq_none_iff, ← each]
      exact List.getElem?_eq_none (Nat.le_refl _)
  · intro k site hk active
    rw [retired_iff each hk active, redundant k site hk]
    exact and_iff_right active
  · intro k site hk stays
    rw [each, hk, Option.map_some, if_neg (mt (redundant k site hk).mp stays)]

end ReferenceData

namespace DataStore

variable {r : ReferenceData} {t : Tolerance} {entry : GroupEntry} {report : ResolutionReport}
  {after : DataStore}

/-- An accepted space group is that of the data from then on, gives up exactly the sites that it
makes redundant, and leaves all else as it was. -/
theorem redundant_retired (placed : r.misplaced? = none)
    (h : (DataStore.mk r .standard t).apply (.setSpaceGroup entry) = (.ok report, after)) :
    ∃ s sites, { r with spaceGroup := entry }.symmetry t = .ok s ∧
      after = ⟨{ r with spaceGroup := entry, sites }, .standard, t⟩ ∧
      GivesUpRedundant s r after.data := by
  obtain ⟨changed, store⟩ := apply_ok h
  obtain ⟨edited, conflicts, hedit, found, final, _⟩ := changed_ok rfl changed
  obtain rfl := DataChange.apply_ok_iff.mp hedit
  obtain ⟨s, hs, rfl⟩ := DataChange.conflicts_setSpaceGroup found
  have only : ∀ c ∈ equivalentSites s [] (r.sites.filter (·.isActive)),
      ∃ kept duplicate, c = .equivalentSites kept duplicate := equivalentSites_only
  obtain ⟨sites, settled, each⟩ := settle_equivalences only { r with spaceGroup := entry }
  have numbered := (misplaced?_none_iff.mp placed).sites
  have data : after.data = { r with spaceGroup := entry, sites } := final.trans settled
  refine ⟨s, sites, hs, ?_, ?_⟩
  · rw [store, data]
  · rw [data]
    exact givesUpRedundant each fun k site hk => mem_duplicates_iff numbered hk

/-- Sites in a row, each within the tolerance of the next one and of no other. -/
def crowded : ReferenceData := { ReferenceData.chain with
  sites := [⟨0, "a", ⟨0.25, 0.0, 0.0⟩, 0, .stable, .active⟩,
    ⟨1, "b", ⟨0.2500009, 0.0, 0.0⟩, 0, .stable, .active⟩,
    ⟨2, "c", ⟨0.2500018, 0.0, 0.0⟩, 0, .stable, .active⟩] }

theorem crowded_retired : ∃ b c s report after, crowded.misplaced? = none ∧
    crowded.sites[1]? = some b ∧ crowded.sites[2]? = some c ∧
    (DataStore.mk crowded .standard (.ofWidth 1.0e-6)).apply (.setSpaceGroup .trivial) =
      (.ok report, after) ∧
    Redundant s crowded after.data 1 b ∧ isImage s b c ∧ ¬Redundant s crowded after.data 2 c := by
  let b : Site := ⟨1, "b", ⟨0.2500009, 0.0, 0.0⟩, 0, .stable, .active⟩
  let c : Site := ⟨2, "c", ⟨0.2500018, 0.0, 0.0⟩, 0, .stable, .active⟩
  have found : (do
      let s ← (crowded.symmetry (.ofWidth 1.0e-6)).mapError BuildError.symmetry
      let x ← (DataStore.mk crowded .standard (.ofWidth 1.0e-6)).changed (.setSpaceGroup .trivial)
      return (s, x) : Except BuildError (Symmetry × ReferenceData × ResolutionReport)).toOption.any
      fun x =>
        decide (x.2.1.sites.map (·.isActive) = [true, false, true]) && isImage x.1 b c := by
    decide +kernel
  obtain ⟨⟨s, data, report⟩, run, facts⟩ := ok_of_any found
  obtain ⟨_, hs, run⟩ := bind_ok_iff.mp run
  obtain ⟨_, changed, run⟩ := bind_ok_iff.mp run
  cases pure_ok_iff.mp run
  obtain ⟨listed, image⟩ := Bool.and_eq_true_iff.mp facts
  have stays : ∀ (k : Nat) (site : Site), data.sites[k]? = some site →
      [true, false, true][k]? = some site.isActive := by
    intro k site hk
    rw [← of_decide_eq_true listed, List.getElem?_map, hk, Option.map_some]
  have applied : (DataStore.mk crowded .standard (.ofWidth 1.0e-6)).apply
      (.setSpaceGroup .trivial) = (.ok report, ⟨data, .standard, .ofWidth 1.0e-6⟩) := by
    unfold apply
    rw [changed]
  obtain ⟨s', sites, hs', _, exactly⟩ := redundant_retired (by rfl) applied
  have same : crowded.symmetry (.ofWidth 1.0e-6) = .ok s' := hs'
  rw [mapError_ok_iff.mp hs, Except.ok.injEq] at same
  subst same
  refine ⟨b, c, s, report, _, by rfl, rfl, rfl, applied, ?_, image, ?_⟩
  · by_contra needed
    have kept := stays 1 b (exactly.unchanged 1 b rfl fun h => needed h.2)
    cases kept
  · intro redundant
    have gone := stays 2 c.retired ((exactly.retired_iff 2 c rfl rfl).mpr redundant)
    cases gone

end DataStore

end CrystalModel
