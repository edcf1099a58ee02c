import CrystalModel.Proofs.Transition.Draft
import CrystalModel.Proofs.Transition.Link
import CrystalModel.Transition.Build

/-! # When the transitions can be built

Every active transition is drafted on its own, and needs the inverses of its mappings: all of them
among its own ones, or all of them on reversed paths that are lattice paths again. -/
namespace CrystalModel

namespace DraftTransition

variable {d : DraftTransition}

/-- The mappings have their inverses among themselves, or get them on reversed paths. -/
def Linkable [Trigonometry] (d : DraftTransition) (e : Encoder) : Prop :=
  (∃ links, d.ownLinks = .ok (some links)) ∨
    d.ownLinks = .ok none ∧ ∃ turned, d.reversed e = some turned

def TurnsBack (d : DraftTransition) (x : PathDraft) : Prop :=
  turnedPath x.path ∈ d.mappings.map (·.path)

theorem pathLinks_eq : pathLinks (d.mappings.map (·.path)) =
    d.mappings.map fun x => (d.mappings.map (·.path)).idxOf? (turnedPath x.path) := by
  rw [pathLinks, List.map_map]
  rfl

theorem ownLinks_none_iff : d.ownLinks = .ok none ↔ ∀ x ∈ d.mappings, ¬d.TurnsBack x := by
  have empty : ((pathLinks (d.mappings.map (·.path))).filterMap id).isEmpty ↔
      ∀ x ∈ d.mappings, ¬d.TurnsBack x := by
    rw [List.isEmpty_iff, List.filterMap_eq_nil_iff, pathLinks_eq, List.forall_mem_map]
    exact forall₂_congr fun x _ => List.idxOf?_eq_none_iff
  rw [← empty]
  unfold ownLinks
  simp only
  split
  · next absent => exact iff_of_true rfl absent
  · next nonempty =>
    refine iff_of_false ?_ nonempty
    split <;> simp

theorem ownLinks_some_iff : (∃ links, d.ownLinks = .ok (some links)) ↔
    d.mappings ≠ [] ∧ ∀ x ∈ d.mappings, d.TurnsBack x := by
  have full : ((pathLinks (d.mappings.map (·.path))).filterMap id).length =
      (pathLinks (d.mappings.map (·.path))).length ↔ ∀ x ∈ d.mappings, d.TurnsBack x := by
    rw [List.filterMap_length_eq_length, pathLinks_eq, List.forall_mem_map]
    refine forall₂_congr fun x _ => ?_
    rw [id, Option.isSome_iff_ne_none, ne_eq, List.idxOf?_eq_none_iff, Decidable.not_not]
    rfl
  rw [← full]
  unfold ownLinks
  simp only
  split
  · next absent =>
    refine iff_of_false (by simp) ?_
    rintro ⟨nonempty, matched⟩
    rw [List.isEmpty_iff.mp absent, pathLinks_eq, List.length_map] at matched
    exact nonempty (List.length_eq_zero_iff.mp matched.symm)
  · next nonempty =>
    split
    · next incomplete => exact iff_of_false (by simp) fun h => incomplete h.2
    · next complete =>
      refine iff_of_true ⟨_, rfl⟩ ⟨?_, Decidable.not_not.mp complete⟩
      intro absent
      rw [pathLinks_eq, absent] at nonempty
      exact nonempty rfl

end DraftTransition

namespace KineticTransition

variable {t : KineticTransition} {r : ReferenceData} {config : Config} {s : CrystalStructure}

theorem encodedPath_ok_iff {a : AbstractTransition} {path : List CrystalVector} :
    t.encodedPath config s a = .ok path ↔
      (t.geometry.length = a.groups.length ∧ 2 ≤ t.geometry.length ∧
        t.geometry.length ≤ config.maxPathLength) ∧
      s.encoder.encodeAll t.geometry = some path ∧
      isRing s.encoder.tolerance t.geometry = false := by
  unfold encodedPath
  simp only
  split
  · next other => simp [other]
  · next same =>
    split
    · next outside =>
      refine iff_of_false (by simp) ?_
      rintro ⟨⟨_, low, high⟩, _⟩
      omega
    · next inside =>
      have size : t.geometry.length = a.groups.length ∧ 2 ≤ t.geometry.length ∧
          t.geometry.length ≤ config.maxPathLength := by
        omega
      rw [and_iff_right size]
      cases s.encoder.encodeAll t.geometry with
      | none => simp
      | some found => cases isRing s.encoder.tolerance t.geometry <;> simp

variable [Trigonometry] {d : DraftTransition}

theorem mapping_ok_iff {e : Encoder} {offsets : List Int} {points : List Point} {x : PathDraft} :
    t.mapping e offsets points = .ok x ↔
      PathDraft.ofPoints e offsets points = some x ∧ isCrystalRing x.path = false := by
  refine ⟨mapping_ok, ?_⟩
  rintro ⟨made, openPath⟩
  simp only [mapping, made, openPath]
  rfl

/-- All that a kinetic draft takes. -/
theorem draft_ok_iff : t.draft r config s = .ok d ↔ ∃ a path states images,
    r.abstractTransition? t.abstractTransition = some a ∧ t.encodedPath config s a = .ok path ∧
    r.offersAlong a (path.map fun v => (CrystalStructure.siteAt s.positionSites v).getD 0) =
      .ok states ∧
    exchangeRules r a states false ≠ [] ∧
    List.Forall₂ (fun points x => t.mapping s.encoder
      (pathOffsets .kinetic a.connectors (states.map (·.unstable))) points = .ok x)
      (s.symmetry.pathImages t.geometry) images ∧
    d = ⟨.kinetic, t.index, a.index, t.attemptFrequency, a.connectors, states.map (·.unstable),
      images.mergeSort fun a b => (compare a.path b.path).isLE,
      exchangeRules r a states false⟩ := by
  constructor
  · intro h
    unfold draft at h
    cases found : r.abstractTransition? t.abstractTransition with
    | none => simp [found] at h
    | some a =>
      simp only [found] at h
      obtain ⟨path, hpath, h⟩ := bind_ok_iff.mp h
      obtain ⟨states, offered, h⟩ := bind_ok_iff.mp h
      split at h
      · cases h
      · next rules =>
        obtain ⟨mappings, hm, h⟩ := bind_ok_iff.mp h
        obtain ⟨images, himages, hm⟩ := bind_ok_iff.mp hm
        rw [← pure_ok_iff.mp h, ← pure_ok_iff.mp hm]
        exact ⟨a, path, states, images, rfl, hpath, mapError_ok_iff.mp offered,
          by simpa using rules, mapM_ok_iff.mp himages, rfl⟩
  · rintro ⟨a, path, states, images, found, hpath, offered, rules, made, rfl⟩
    rw [← List.isEmpty_eq_false_iff] at rules
    simp only [draft, found, hpath, offered, Except.mapError, rules, mappings, mapM_ok_iff.mpr made,
      bind, Except.bind, pure, Except.pure]
    rfl

end KineticTransition

namespace MetropolisTransition

variable [Trigonometry] {t : MetropolisTransition} {r : ReferenceData} {s : CrystalStructure}
  {d : DraftTransition}

theorem mapping_ok_iff {offsets : List Int} {first second : Nat} {x : PathDraft} :
    mapping s offsets first second = .ok x ↔ PathDraft.ofPoints s.encoder offsets
      ([first, second].filterMap (s.encoder.positions[·]?)) = some x := by
  unfold mapping
  simp only
  cases PathDraft.ofPoints s.encoder offsets
    ([first, second].filterMap (s.encoder.positions[·]?)) <;> simp

/-- All that a Metropolis draft takes. -/
theorem draft_ok_iff : t.draft r s = .ok d ↔ ∃ a states found,
    r.abstractTransition? t.abstractTransition = some a ∧ a.groups.length = 2 ∧
    t.checkSites s = .ok () ∧ r.offersAlong a [t.site0, t.site1] = .ok states ∧
    exchangeRules r a states true ≠ [] ∧ found ≠ [] ∧
    List.Forall₂ (fun pair x => mapping s
      (pathOffsets .metropolis a.connectors (states.map (·.unstable))) pair.1 pair.2 = .ok x)
      (t.pairs s) found ∧
    d = ⟨.metropolis, t.index, a.index, 1.0, a.connectors, states.map (·.unstable), found,
      exchangeRules r a states true⟩ := by
  constructor
  · intro h
    unfold draft at h
    cases found : r.abstractTransition? t.abstractTransition with
    | none => simp [found] at h
    | some a =>
      simp only [found] at h
      split at h
      · cases h
      · next two =>
        obtain ⟨⟨⟩, checked, h⟩ := bind_ok_iff.mp h
        obtain ⟨states, offered, h⟩ := bind_ok_iff.mp h
        split at h
        · cases h
        · next rules =>
          obtain ⟨mappings, hm, h⟩ := bind_ok_iff.mp h
          obtain ⟨images, himages, hm⟩ := bind_ok_iff.mp hm
          split at hm
          · cases hm
          · next nonempty =>
            cases hm
            rw [← pure_ok_iff.mp h]
            exact ⟨a, states, _, rfl, Decidable.not_not.mp two, checked,
              mapError_ok_iff.mp offered, by simpa using rules, by simpa using nonempty,
              mapM_ok_iff.mp himages, rfl⟩
  · rintro ⟨a, states, images, found, two, checked, offered, rules, nonempty, made, rfl⟩
    rw [← List.isEmpty_eq_false_iff] at rules nonempty
    have mapped : (t.pairs s).mapM (fun pair => mapping s
        (pathOffsets .metropolis a.connectors (states.map (·.unstable))) pair.1 pair.2) =
        .ok images := mapM_ok_iff.mpr made
    simp only [pairs] at mapped
    simp only [draft, found, two, checked, offered, Except.mapError, rules, mappings, mapped,
      nonempty, bind, Except.bind, pure, Except.pure]
    rfl

end MetropolisTransition

namespace TransitionPlan

variable [Trigonometry] {e : Encoder} {drafts : List DraftTransition}

theorem ofDrafts_succeeds_iff :
    (∃ plans, ofDrafts e drafts = .ok plans) ↔ ∀ d ∈ drafts, d.Linkable e := by
  have steps : (∃ plans, ofDrafts e drafts = .ok plans) ↔ ∃ own : List (Option (List Nat)),
      List.Forall₂ (fun (d : DraftTransition) links => d.ownLinks = .ok links) drafts own ∧
      ∀ forward ∈ pending own, ∃ ds, reversedDraft e drafts forward = .ok ds := by
    simp only [ofDrafts, bind_ok_iff, pure_ok_iff, mapM_ok_iff, ← mapM_succeeds_iff]
    constructor
    · rintro ⟨_, own, owned, reversed, turned, _⟩
      exact ⟨own, owned, reversed, turned⟩
    · rintro ⟨own, owned, reversed, turned⟩
      exact ⟨_, own, owned, reversed, turned, rfl⟩
  rw [steps]
  constructor
  · rintro ⟨own, owned, turned⟩ d hd
    obtain ⟨k, hk⟩ := List.mem_iff_getElem?.mp hd
    obtain ⟨links, hlinks, hown⟩ := aligned_left owned hk
    cases links with
    | some links => exact Or.inl ⟨links, hown⟩
    | none =>
      obtain ⟨ds, reversed⟩ := turned k (mem_pending.mpr hlinks)
      simp only [reversedDraft, hk] at reversed
      cases back : d.reversed e with
      | none => simp [back] at reversed
      | some t => exact Or.inr ⟨hown, t, back⟩
  · intro linkable
    have each : ∀ d ∈ drafts, ∃ links, d.ownLinks = .ok links := by
      intro d hd
      rcases linkable d hd with ⟨links, hown⟩ | ⟨hown, _⟩
      · exact ⟨some links, hown⟩
      · exact ⟨none, hown⟩
    obtain ⟨own, owned⟩ := mapM_succeeds_iff.mpr each
    rw [mapM_ok_iff] at owned
    refine ⟨own, owned, fun forward waiting => ?_⟩
    obtain ⟨d, hd, hown⟩ := aligned_right owned (mem_pending.mp waiting)
    rcases linkable d (List.mem_of_getElem? hd) with ⟨links, other⟩ | ⟨_, t, back⟩
    · rw [hown] at other
      cases other
    · exact ⟨[t], by simp only [reversedDraft, hd, back]⟩

end TransitionPlan

namespace TransitionNetwork

variable [Trigonometry] {r : ReferenceData} {config : Config} {s : CrystalStructure}

/-- The transitions of reference data can be built exactly when every active one has a draft whose
mappings can be linked to their inverses. -/
theorem build_succeeds_iff : (∃ n, build r config s = .ok n) ↔ r.checkPlaces = .ok () ∧
    (∀ t ∈ r.kineticTransitions.filter (·.isActive),
      ∃ d, t.draft r config s = .ok d ∧ d.Linkable s.encoder) ∧
    ∀ t ∈ r.metropolisTransitions.filter (·.isActive),
      ∃ d, t.draft r s = .ok d ∧ d.Linkable s.encoder := by
  have each : ∀ {α : Type} {draft : α → Except BuildError DraftTransition} {xs : List α},
      (∃ ds, xs.mapM draft = .ok ds ∧ ∃ plans, TransitionPlan.ofDrafts s.encoder ds = .ok plans) ↔
        ∀ x ∈ xs, ∃ d, draft x = .ok d ∧ d.Linkable s.encoder := by
    intro α draft xs
    simp only [TransitionPlan.ofDrafts_succeeds_iff]
    constructor
    · rintro ⟨ds, made, linkable⟩ x hx
      obtain ⟨d, hd, drafted⟩ := aligned_mem_left (mapM_ok_iff.mp made) hx
      exact ⟨d, drafted, linkable d hd⟩
    · intro matched
      obtain ⟨ds, made⟩ := mapM_succeeds_iff.mpr fun x hx => (matched x hx).imp fun _ => And.left
      refine ⟨ds, made, fun d hd => ?_⟩
      obtain ⟨x, hx, drafted⟩ := aligned_mem_right (mapM_ok_iff.mp made) hd
      obtain ⟨d', drafted', linkable⟩ := matched x hx
      rw [drafted, Except.ok.injEq] at drafted'
      exact drafted' ▸ linkable
  rw [← each, ← each]
  simp only [build, bind_ok_iff, pure_ok_iff]
  constructor
  · rintro ⟨_, ⟨⟩, places, kinetic, hk, plans, hplans, metropolis, hm, others, hothers, _⟩
    exact ⟨places, ⟨kinetic, hk, plans, hplans⟩, metropolis, hm, others, hothers⟩
  · rintro ⟨places, ⟨kinetic, hk, plans, hplans⟩, metropolis, hm, others, hothers⟩
    exact ⟨_, (), places, kinetic, hk, plans, hplans, metropolis, hm, others, hothers, rfl⟩

end TransitionNetwork

end CrystalModel
