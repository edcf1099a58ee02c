import CrystalModel.Proofs.Sink.Layout

/-! # Keys side by side

Keys whose files fit into one directory do not disturb each other. A list of staged keys can be
published if and only if each of them is listed once. -/
namespace CrystalModel.DirectorySink

open Binary (Bytes)
open FileTree (Fits Apart)

variable [RootDirectory]

/-- Keys whose files fit into one directory: plain relative names, none of them below the staging
directory, and no file a directory of another. -/
structure SideBySide (keys : List String) : Prop where
  plain : ∀ key ∈ keys, (stagedTarget key).Plain
  outside : ∀ key ∈ keys, Outside (target key)
  apart : ∀ key ∈ keys, ∀ key' ∈ keys, target key <+: target key' → target key = target key'

def places (keys : List String) : Set FilePath :=
  {place | ∃ key ∈ keys, place = target key ∨ place = stagedTarget key}

variable {keys moving : List String} {key k : String} {t t' : FileTree} {bytes : Bytes}

omit [RootDirectory] in
theorem target_mem_places (h : key ∈ keys) : target key ∈ places keys := ⟨key, h, .inl rfl⟩

omit [RootDirectory] in
theorem stagedTarget_mem_places (h : key ∈ keys) : stagedTarget key ∈ places keys :=
  ⟨key, h, .inr rfl⟩

omit [RootDirectory] in
theorem stagedTarget_inj_iff : stagedTarget k = stagedTarget key ↔ k = key :=
  ⟨fun same => target_inj (List.append_cancel_left same), fun same => same ▸ rfl⟩

namespace SideBySide

theorem target_ne_stagedTarget (side : SideBySide keys) (h : key ∈ keys) (k : String) :
    target key ≠ stagedTarget k :=
  fun same => not_outside_stagedTarget k (same ▸ side.outside key h)

theorem places_apart (side : SideBySide keys) : Apart (places keys) where
  plain := by
    rintro place ⟨key, h, rfl | rfl⟩
    · exact (side.plain key h).sublist (List.sublist_append_right _ _)
    · exact side.plain key h
  apart := by
    rintro p ⟨key, h, rfl | rfl⟩ q ⟨key', h', rfl | rfl⟩ below
    · exact side.apart key h key' h' below
    · refine absurd ?_ (side.outside key h)
      rcases List.prefix_or_prefix_of_prefix below (List.prefix_append _ _) with short | long
      · rcases List.prefix_cons_iff.mp short with empty | ⟨rest, split, tail⟩
        · exact absurd empty (target_ne_nil key)
        · rw [split, List.prefix_nil.mp tail]
          exact List.prefix_rfl
      · exact long
    · exact absurd ((List.prefix_append _ _).trans below) (side.outside key' h')
    · exact congrArg (stagingArea ++ ·)
        (side.apart key h key' h' ((List.prefix_append_right_inj _).mp below))

theorem stagingArea_notMem (side : SideBySide keys) : stagingArea ∉ places keys := by
  rintro ⟨key, h, same | same⟩
  · exact side.outside key h (same ▸ List.prefix_rfl)
  · exact target_ne_nil key (List.append_right_eq_self.mp same.symm)

omit [RootDirectory] in
theorem nil_notMem : [] ∉ places keys := by
  rintro ⟨key, -, same | same⟩
  · exact target_ne_nil key same.symm
  · cases same

end SideBySide

/-! ## Keys that are published -/

theorem publish_missing (side : SideBySide keys) (fits : Fits (places keys) t) (h : key ∈ keys)
    (missing : t.bytesAt (stagedTarget key) = none) : (publish t key).1 = .error ⟨key⟩ := by
  obtain ⟨made, paved, fails, -⟩ := fits.rename side.places_apart (stagedTarget_mem_places h)
    (target_mem_places h)
  rw [publish, paved]
  simp only [fails missing]

theorem publish_staged (side : SideBySide keys) (fits : Fits (places keys) t) (h : key ∈ keys)
    (staged : t.bytesAt (stagedTarget key) = some bytes) :
    ∃ t', publish t key = (.ok (), t') ∧ Fits (places keys) t' ∧ ∀ q, t'.bytesAt q =
      if q = target key then some bytes
      else if q = stagedTarget key then none else t.bytesAt q := by
  obtain ⟨made, paved, -, moves⟩ := fits.rename side.places_apart (stagedTarget_mem_places h)
    (target_mem_places h)
  obtain ⟨t', moved, fits', files⟩ := moves bytes staged
  exact ⟨t', by rw [publish, paved]; simp only [moved], fits', files⟩

theorem publish_ok_staged (side : SideBySide keys) (fits : Fits (places keys) t) (h : key ∈ keys)
    (ok : publish t key = (.ok (), t')) : Fits (places keys) t' ∧ ∀ k ∈ keys,
      t'.bytesAt (stagedTarget k) = if k = key then none else t.bytesAt (stagedTarget k) := by
  cases staged : t.bytesAt (stagedTarget key) with
  | none =>
    have fails := publish_missing side fits h staged
    rw [ok] at fails
    cases fails
  | some bytes =>
    obtain ⟨_, ok', fits', files⟩ := publish_staged side fits h staged
    obtain ⟨-, rfl⟩ := Prod.mk.inj (ok.symm.trans ok')
    refine ⟨fits', fun k hk => ?_⟩
    rw [files, if_neg (side.target_ne_stagedTarget h k).symm]
    simp only [stagedTarget_inj_iff]

theorem publishAll_once (published : List String) (side : SideBySide keys)
    (fits : Fits (places keys) t) (known : ∀ k ∈ moving, k ∈ keys) (once : moving.Nodup)
    (staged : ∀ k ∈ moving, ∃ bytes, t.bytesAt (stagedTarget k) = some bytes) :
    ∃ t', publishAll t published moving = (.ok (), t') ∧ Fits (places keys) t' ∧
      ∀ k ∈ keys, t'.bytesAt (target k) =
        if k ∈ moving then t.bytesAt (stagedTarget k) else t.bytesAt (target k) := by
  induction moving generalizing t published with
  | nil => exact ⟨t, rfl, fits, by simp⟩
  | cons key rest ih =>
    obtain ⟨fresh, once⟩ := List.nodup_cons.mp once
    obtain ⟨hkey, known⟩ := List.forall_mem_cons.mp known
    obtain ⟨⟨bytes, first⟩, staged⟩ := List.forall_mem_cons.mp staged
    obtain ⟨t₁, ok, fits₁, files⟩ := publish_staged side fits hkey first
    have goals : ∀ k ∈ keys, t₁.bytesAt (target k) =
        if k = key then t.bytesAt (stagedTarget k) else t.bytesAt (target k) := by
      intro k hk
      rw [files, if_neg (side.target_ne_stagedTarget hk key)]
      by_cases same : k = key
      · rw [if_pos (congrArg target same), if_pos same, same, first]
      · rw [if_neg fun equal => same (target_inj equal), if_neg same]
    have left : ∀ k ∈ rest, t₁.bytesAt (stagedTarget k) = t.bytesAt (stagedTarget k) := by
      intro k hk
      have differ : k ≠ key := fun same => fresh (same ▸ hk)
      rw [(publish_ok_staged side fits hkey ok).2 k (known k hk), if_neg differ]
    obtain ⟨t', others, fits', moved⟩ := ih (published ++ [key]) fits₁ known once
      fun k hk => (staged k hk).imp fun _ file => (left k hk).trans file
    refine ⟨t', by rw [publishAll, ok]; exact others, fits', fun k hk => ?_⟩
    rw [moved k hk, goals k hk]
    by_cases later : k ∈ rest
    · rw [if_pos later, if_pos (List.mem_cons_of_mem key later), left k later]
    · simp only [later, List.mem_cons, or_false, if_false]

theorem publishAll_missing (published : List String) (side : SideBySide keys)
    (fits : Fits (places keys) t) (known : ∀ k ∈ moving, k ∈ keys) (h : key ∈ moving)
    (missing : t.bytesAt (stagedTarget key) = none) :
    (publishAll t published moving).1 ≠ .ok () := by
  induction moving generalizing t published with
  | nil => cases h
  | cons first rest ih =>
    obtain ⟨hfirst, known'⟩ := List.forall_mem_cons.mp known
    rw [publishAll]
    split
    · next t₁ ok =>
      obtain ⟨fits₁, files⟩ := publish_ok_staged side fits hfirst ok
      have other : key ≠ first := by
        rintro rfl
        cases (publish_missing side fits hfirst missing).symm.trans (congrArg Prod.fst ok)
      have later := (List.mem_cons.mp h).resolve_left other
      exact ih _ fits₁ known' later (by rw [files key (known key h), if_neg other, missing])
    · nofun

/-- A key that is listed twice has no file left when it comes up again. -/
theorem publishAll_repeated (published : List String) (side : SideBySide keys)
    (fits : Fits (places keys) t) (known : ∀ k ∈ moving, k ∈ keys) (repeated : ¬ moving.Nodup) :
    (publishAll t published moving).1 ≠ .ok () := by
  induction moving generalizing t published with
  | nil => exact absurd List.nodup_nil repeated
  | cons first rest ih =>
    obtain ⟨hfirst, known⟩ := List.forall_mem_cons.mp known
    rw [publishAll]
    split
    · next t₁ ok =>
      obtain ⟨fits₁, files⟩ := publish_ok_staged side fits hfirst ok
      by_cases again : first ∈ rest
      · exact publishAll_missing _ side fits₁ known again
          (by rw [files first hfirst, if_pos rfl])
      · exact ih _ fits₁ known fun once => repeated (List.nodup_cons.mpr ⟨again, once⟩)
    · nofun

end CrystalModel.DirectorySink
