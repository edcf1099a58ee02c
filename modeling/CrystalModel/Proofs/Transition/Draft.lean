import CrystalModel.Proofs.Fallible
import CrystalModel.Proofs.Structure.Build
import CrystalModel.Proofs.Symmetry.Projection
import CrystalModel.Transition.Kinetic
import CrystalModel.Transition.Metropolis

/-! # Drafts that succeed

The paths of a draft are lattice positions all along, and as long as the transition asks for. -/
namespace CrystalModel

namespace PathDraft

/-- The path is the encoded form of its points, and every particle on it has its movement. -/
structure Encoded (e : Encoder) (x : PathDraft) : Prop where
  path : e.encodeAll x.fractional = some x.path
  movement : x.movement.length = x.fractional.length

variable {e : Encoder} {offsets : List Int} {points : List Point} {x y : PathDraft}

theorem Encoded.length (h : Encoded e x) : x.path.length = x.fractional.length :=
  (mapM_some_iff.mp h.path).length_eq.symm

variable [Trigonometry]

theorem ofPoints_some (h : ofPoints e offsets points = some x) :
    x.fractional = points ∧ Encoded e x := by
  obtain ⟨path, hpath, h⟩ := Option.bind_eq_some_iff.mp h
  obtain ⟨movement, hmovement, h⟩ := Option.bind_eq_some_iff.mp h
  cases h
  refine ⟨rfl, hpath, ?_⟩
  rw [← (mapM_some_iff.mp hmovement).length_eq, List.length_range]

theorem reversed_some (h : x.reversed e offsets = some y) :
    y.fractional.length = x.fractional.length ∧ Encoded e y := by
  obtain ⟨last, _, h⟩ := Option.bind_eq_some_iff.mp h
  obtain ⟨points, encoded⟩ := ofPoints_some h
  refine ⟨?_, encoded⟩
  rw [points, List.length_map, List.length_reverse]

end PathDraft

namespace DraftTransition

/-- All paths are lattice paths of a length between two and the limit. -/
def Sound (e : Encoder) (limit : Nat) (d : DraftTransition) : Prop :=
  ∀ x ∈ d.mappings, x.Encoded e ∧ 2 ≤ x.path.length ∧ x.path.length ≤ limit

variable [Trigonometry]

theorem reversed_some {e : Encoder} {d turned : DraftTransition}
    (h : d.reversed e = some turned) : turned.kind = d.kind ∧ turned.reference = d.reference ∧
      List.Forall₂ (fun x y => PathDraft.reversed x e
        (pathOffsets d.kind d.connectors.reverse d.unstable.reverse) = some y)
        d.mappings turned.mappings := by
  obtain ⟨mappings, hm, h⟩ := Option.bind_eq_some_iff.mp h
  cases h
  exact ⟨rfl, rfl, mapM_some_iff.mp hm⟩

theorem reversed_rules {e : Encoder} {d turned : DraftTransition}
    (h : d.reversed e = some turned) : turned.rules = d.rules.map (·.inverted) := by
  obtain ⟨mappings, _, h⟩ := Option.bind_eq_some_iff.mp h
  cases h
  rfl

theorem Sound.reversed {e : Encoder} {limit : Nat} {d turned : DraftTransition}
    (sound : d.Sound e limit) (h : d.reversed e = some turned) : turned.Sound e limit := by
  obtain ⟨_, _, aligned⟩ := reversed_some h
  intro y hy
  obtain ⟨x, hx, hxy⟩ := aligned_mem_right aligned hy
  obtain ⟨encoded, low, high⟩ := sound x hx
  obtain ⟨length, encoded'⟩ := PathDraft.reversed_some hxy
  have := encoded.length
  have := encoded'.length
  exact ⟨encoded', by omega, by omega⟩

end DraftTransition

theorem Settings.config_ok {settings : Settings} {config : Config}
    (h : settings.config = .ok config) :
    2 ≤ config.maxPathLength ∧ config.maxPathLength ≤ pathLimit := by
  unfold Settings.config at h
  split at h
  · cases h
  · simp only at h
    split at h
    · cases h
    split at h
    · cases h
    split at h
    · cases h
    · next fits =>
      cases h
      simp only
      omega

namespace KineticTransition

variable {t : KineticTransition} {r : ReferenceData} {config : Config} {s : CrystalStructure}
  {d : DraftTransition}

theorem encodedPath_ok {a : AbstractTransition} {path : List CrystalVector}
    (h : t.encodedPath config s a = .ok path) :
    2 ≤ t.geometry.length ∧ t.geometry.length ≤ config.maxPathLength := by
  unfold encodedPath at h
  simp only at h
  split at h
  · cases h
  · split at h
    · cases h
    · omega

variable [Trigonometry]

theorem mapping_ok {e : Encoder} {offsets : List Int} {points : List Point} {x : PathDraft}
    (h : t.mapping e offsets points = .ok x) :
    PathDraft.ofPoints e offsets points = some x ∧ isCrystalRing x.path = false := by
  unfold mapping at h
  cases made : PathDraft.ofPoints e offsets points with
  | none => simp [made] at h
  | some m =>
    simp only [made] at h
    split at h
    · cases h
    · next openPath =>
      cases h
      exact ⟨rfl, by simpa using openPath⟩

/-- What a kinetic draft is made of: the rules of its path, and the sorted mappings of its
images. -/
structure Drafted (t : KineticTransition) (r : ReferenceData) (config : Config)
    (s : CrystalStructure) (d : DraftTransition) (a : AbstractTransition)
    (states : List PositionOffer) (images : List PathDraft) : Prop where
  low : 2 ≤ t.geometry.length
  high : t.geometry.length ≤ config.maxPathLength
  kind : d.kind = .kinetic
  reference : d.reference = t.index
  rules : d.rules = exchangeRules r a states false
  sorted : d.mappings = images.mergeSort fun a b => (compare a.path b.path).isLE
  made : List.Forall₂ (fun points x => PathDraft.ofPoints s.encoder
      (pathOffsets .kinetic a.connectors (states.map (·.unstable))) points = some x ∧
      isCrystalRing x.path = false) (s.symmetry.pathImages t.geometry) images

theorem drafted_of_ok (h : t.draft r config s = .ok d) :
    ∃ a states images, t.Drafted r config s d a states images := by
  unfold draft at h
  cases found : r.abstractTransition? t.abstractTransition with
  | none => simp [found] at h
  | some a =>
    simp only [found] at h
    obtain ⟨path, hpath, h⟩ := bind_ok_iff.mp h
    obtain ⟨states, _, h⟩ := bind_ok_iff.mp h
    split at h
    · cases h
    obtain ⟨mappings, hm, h⟩ := bind_ok_iff.mp h
    obtain ⟨images, himages, hm⟩ := bind_ok_iff.mp hm
    obtain ⟨low, high⟩ := encodedPath_ok hpath
    rw [← pure_ok_iff.mp h, ← pure_ok_iff.mp hm]
    exact ⟨a, states, images, low, high, rfl, rfl, rfl, rfl,
      (mapM_ok_iff.mp himages).imp fun _ _ made => mapping_ok made⟩

theorem Drafted.mem {a : AbstractTransition} {states : List PositionOffer}
    {images : List PathDraft} (h : t.Drafted r config s d a states images) {x : PathDraft} :
    x ∈ d.mappings ↔ x ∈ images := by
  rw [h.sorted, List.mem_mergeSort]

theorem draft_of_ascending {a : AbstractTransition} {path : List CrystalVector}
    {states : List PositionOffer} {images : List PathDraft}
    (found : r.abstractTransition? t.abstractTransition = some a)
    (encoded : t.encodedPath config s a = .ok path)
    (offered : r.offersAlong a
      (path.map fun v => (CrystalStructure.siteAt s.positionSites v).getD 0) = .ok states)
    (nonempty : exchangeRules r a states false ≠ [])
    (made : (s.symmetry.pathImages t.geometry).mapM (t.mapping s.encoder
      (pathOffsets .kinetic a.connectors (states.map (·.unstable)))) = .ok images)
    (ascending : images.Pairwise fun a b => (compare a.path b.path).isLE = true) :
    t.draft r config s = .ok ⟨.kinetic, t.index, a.index, t.attemptFrequency, a.connectors,
      states.map (·.unstable), images, exchangeRules r a states false⟩ := by
  have sorted : images.mergeSort (fun a b => (compare a.path b.path).isLE) = images :=
    List.mergeSort_of_pairwise ascending
  have rules : (exchangeRules r a states false).isEmpty = false := by
    simpa using nonempty
  simp only [draft, found, encoded, offered, Except.mapError, rules, mappings, made, sorted, bind,
    Except.bind, pure, Except.pure]
  rfl

theorem draft_ok (h : t.draft r config s = .ok d) :
    d.kind = .kinetic ∧ d.reference = t.index ∧
      (∀ x ∈ d.mappings, isCrystalRing x.path = false) ∧
      d.Sound s.encoder config.maxPathLength := by
  obtain ⟨a, states, images, drafted⟩ := drafted_of_ok h
  refine ⟨drafted.kind, drafted.reference, fun x hx => ?_, fun x hx => ?_⟩
  · obtain ⟨_, _, _, openPath⟩ := aligned_mem_right drafted.made (drafted.mem.mp hx)
    exact openPath
  · obtain ⟨points, hpoints, made, _⟩ := aligned_mem_right drafted.made (drafted.mem.mp hx)
    obtain ⟨same, encoded⟩ := PathDraft.ofPoints_some made
    have length := encoded.length
    rw [same, Symmetry.pathImages_length hpoints] at length
    have low := drafted.low
    have high := drafted.high
    exact ⟨encoded, by omega, by omega⟩

end KineticTransition

namespace MetropolisTransition

variable {t : MetropolisTransition} {r : ReferenceData} {s : CrystalStructure}
  {d : DraftTransition}

def pairs (t : MetropolisTransition) (s : CrystalStructure) : List (Nat × Nat) :=
  (s.positionsOn t.site0).flatMap fun first => (s.positionsOn t.site1).map fun second =>
    (first, second)

theorem mem_pairs {first second : Nat} : (first, second) ∈ t.pairs s ↔
    s.positionSites[first]? = some t.site0 ∧ s.positionSites[second]? = some t.site1 := by
  have mem_positionsOn : ∀ p site, p ∈ s.positionsOn site ↔ s.positionSites[p]? = some site := by
    intro p site
    refine (mem_places (p := (· = site)) fun _ _ _ => by simp).trans ?_
    simp
  simp [pairs, mem_positionsOn]

theorem points_of_pair (sound : CrystalStructure.Sound r s)
    {pair : Nat × Nat} (h : pair ∈ t.pairs s) :
    ∃ v w, s.encoder.positions[pair.1]? = some v ∧ s.encoder.positions[pair.2]? = some w ∧
      [pair.1, pair.2].filterMap (s.encoder.positions[·]?) = [v, w] := by
  obtain ⟨first, second⟩ := mem_pairs.mp h
  have within : ∀ {p site : Nat}, s.positionSites[p]? = some site →
      ∃ v, s.encoder.positions[p]? = some v := by
    intro p site hp
    have := (List.getElem?_eq_some_iff.mp hp).1
    exact ⟨_, List.getElem?_eq_getElem (sound.positions.aligned ▸ this)⟩
  obtain ⟨v, hv⟩ := within first
  obtain ⟨w, hw⟩ := within second
  exact ⟨v, w, hv, hw, by simp [hv, hw]⟩

variable [Trigonometry]

/-- What a Metropolis draft is made of: the rules between its sites, and one mapping per pair of
their positions. -/
structure Drafted (t : MetropolisTransition) (r : ReferenceData) (s : CrystalStructure)
    (d : DraftTransition) (a : AbstractTransition) (states : List PositionOffer) : Prop where
  kind : d.kind = .metropolis
  reference : d.reference = t.index
  rules : d.rules = exchangeRules r a states true
  nonempty : d.mappings ≠ []
  made : List.Forall₂ (fun pair x => PathDraft.ofPoints s.encoder
      (pathOffsets .metropolis a.connectors (states.map (·.unstable)))
      ([pair.1, pair.2].filterMap (s.encoder.positions[·]?)) = some x) (t.pairs s) d.mappings

theorem drafted_of_ok (h : t.draft r s = .ok d) : ∃ a states, t.Drafted r s d a states := by
  unfold draft at h
  cases found : r.abstractTransition? t.abstractTransition with
  | none => simp [found] at h
  | some a =>
    simp only [found] at h
    split at h
    · cases h
    obtain ⟨⟨⟩, _, h⟩ := bind_ok_iff.mp h
    obtain ⟨states, _, h⟩ := bind_ok_iff.mp h
    split at h
    · cases h
    obtain ⟨mappings, hm, h⟩ := bind_ok_iff.mp h
    obtain ⟨images, himages, hm⟩ := bind_ok_iff.mp hm
    split at hm
    · cases hm
    · next nonempty =>
      cases hm
      rw [← pure_ok_iff.mp h]
      refine ⟨a, states, rfl, rfl, rfl, by simpa using nonempty, ?_⟩
      refine (mapM_ok_iff.mp himages).imp fun pair x made => ?_
      simp only [mapping] at made
      split at made
      · next m hm =>
        cases made
        exact hm
      · cases made

theorem draft_ok (h : t.draft r s = .ok d) :
    d.kind = .metropolis ∧ d.reference = t.index ∧ d.mappings ≠ [] ∧
      ∃ offsets, List.Forall₂ (fun pair x => PathDraft.ofPoints s.encoder offsets
        ([pair.1, pair.2].filterMap (s.encoder.positions[·]?)) = some x)
        (t.pairs s) d.mappings := by
  obtain ⟨_, _, drafted⟩ := drafted_of_ok h
  exact ⟨drafted.kind, drafted.reference, drafted.nonempty, _, drafted.made⟩

theorem draft_sound {r' : ReferenceData} (sound : CrystalStructure.Sound r' s)
    (h : t.draft r s = .ok d) : d.Sound s.encoder 2 := by
  obtain ⟨_, _, _, offsets, made⟩ := draft_ok h
  intro x hx
  obtain ⟨pair, hpair, hx⟩ := aligned_mem_right made hx
  obtain ⟨v, w, _, _, points⟩ := points_of_pair sound hpair
  obtain ⟨same, encoded⟩ := PathDraft.ofPoints_some hx
  have length := encoded.length
  rw [same, points] at length
  simp only [List.length_cons, List.length_nil] at length
  exact ⟨encoded, by omega, by omega⟩

end MetropolisTransition

end CrystalModel
