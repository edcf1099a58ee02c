import CrystalModel.Proofs.Reference.Validation
import CrystalModel.Proofs.Transition.Ring

/-! # Repeated paths

Images of an authored path are told apart as points, within the tolerance, and their codes are made
afterwards. Two images around one lattice position can lie too far apart to be the same image and
still get the same code. -/
namespace CrystalModel

/-- The lattice path of a model for one image of its authored path. An appended model runs the
image from its other end. -/
def routeOf (e : Encoder) (appended : Bool) (points : List Point) :
    Option (List CrystalVector) := do
  let path ← e.encodeAll points
  if appended then
    let last ← path.getLast?
    e.encodeAll (points.reverse.map (· + Fractional.ofOffset (-last.cell)))
  else return path

/-- Two images that are not the same within the tolerance, but have the same lattice path. -/
def CrystalStructure.Merges (s : CrystalStructure) (k : KineticTransition) (appended : Bool) :
    Prop :=
  ∃ first second, [first, second].Sublist (s.symmetry.pathImages k.geometry) ∧
    s.symmetry.tolerance.closeSequences first second = false ∧
    routeOf s.encoder appended first = routeOf s.encoder appended second

namespace PathDraft

variable {e : Encoder} {x y : PathDraft}

theorem Encoded.route (h : x.Encoded e) : routeOf e false x.fractional = some x.path := by
  simp only [routeOf, h.path, Option.bind_eq_bind, Option.bind_some, Bool.false_eq_true, if_false]
  rfl

variable [Trigonometry] {offsets : List Int}

theorem Encoded.reversed_route (h : x.Encoded e) (turned : x.reversed e offsets = some y) :
    routeOf e true x.fractional = some y.path := by
  obtain ⟨last, hlast, made⟩ := Option.bind_eq_some_iff.mp turned
  obtain ⟨points, encoded⟩ := ofPoints_some made
  have codes := encoded.path
  rw [points] at codes
  simp only [routeOf, h.path, Option.bind_eq_bind, Option.bind_some, if_true, hlast]
  exact codes

end PathDraft

section Drafts

variable [Trigonometry] {r r' : ReferenceData} {config : Config} {s : CrystalStructure}
  {d turned : DraftTransition}

namespace KineticTransition

variable {k : KineticTransition} {a : AbstractTransition} {states : List PositionOffer}
  {images : List PathDraft}

theorem Drafted.encoded (drafted : k.Drafted r config s d a states images) {x : PathDraft}
    (hx : x ∈ images) : x.Encoded s.encoder := by
  obtain ⟨_, _, made, _⟩ := aligned_mem_right drafted.made hx
  exact (PathDraft.ofPoints_some made).2

theorem Drafted.found (drafted : k.Drafted r config s d a states images) :
    (d.mappings.map (·.fractional)).Perm (s.symmetry.pathImages k.geometry) := by
  have points : (s.symmetry.pathImages k.geometry).map id = images.map (·.fractional) := by
    refine map_eq_of_aligned (drafted.made.imp ?_)
    rintro points x ⟨made, _⟩
    exact (PathDraft.ofPoints_some made).1.symm
  rw [List.map_id] at points
  rw [points, drafted.sorted]
  exact (List.mergeSort_perm _ _).map _

theorem Drafted.routes (drafted : k.Drafted r config s d a states images) :
    d.mappings.map (fun x => some x.path) =
      (d.mappings.map (·.fractional)).map (routeOf s.encoder false) := by
  rw [List.map_map]
  apply List.map_congr_left
  intro x hx
  exact (drafted.encoded (drafted.mem.mp hx)).route.symm

theorem Drafted.reversed_routes (drafted : k.Drafted r config s d a states images)
    (h : d.reversed s.encoder = some turned) : turned.mappings.map (fun x => some x.path) =
      (d.mappings.map (·.fractional)).map (routeOf s.encoder true) := by
  obtain ⟨_, _, aligned⟩ := DraftTransition.reversed_some h
  rw [List.map_map]
  refine (map_eq_of_aligned (aligned_imp aligned ?_)).symm
  intro x hx y _ made
  exact (drafted.encoded (drafted.mem.mp hx)).reversed_route made

theorem Drafted.merges_iff (drafted : k.Drafted r config s d a states images)
    {paths : List (List CrystalVector)} {appended : Bool}
    (routes : paths.map some = (d.mappings.map (·.fractional)).map (routeOf s.encoder appended)) :
    ¬paths.Nodup ↔ s.Merges k appended := by
  have whole : paths.Nodup ↔
      ((s.symmetry.pathImages k.geometry).map (routeOf s.encoder appended)).Nodup := by
    rw [← (drafted.found.map (routeOf s.encoder appended)).nodup_iff, ← routes]
    exact (List.nodup_map_iff (Option.some_injective _)).symm
  rw [whole, not_nodup_map_iff]
  constructor
  · rintro ⟨first, second, among, same⟩
    have apart := List.pairwise_iff_forall_sublist.mp
      (s.symmetry.pathImages_apart k.geometry) among
    exact ⟨first, second, among, apart, same⟩
  · rintro ⟨first, second, among, _, same⟩
    exact ⟨first, second, among, same⟩

end KineticTransition

namespace MetropolisTransition

variable {k : MetropolisTransition}

omit [Trigonometry] in
theorem pairs_nodup (k : MetropolisTransition) (s : CrystalStructure) : (k.pairs s).Nodup := by
  have positions : ∀ site, (s.positionsOn site).Nodup := by
    intro site
    unfold CrystalStructure.positionsOn
    exact places_nodup (p := (· = site)) fun _ _ _ => by simp
  exact (positions k.site0).product (positions k.site1)

theorem numbers_nodup (sound : CrystalStructure.Sound r' s)
    (fits : s.positionSites.length ≤ 2 ^ 32) (h : k.draft r s = .ok d) :
    (d.mappings.map fun x => x.path.map (·.p)).Nodup := by
  have small : ∀ {p site : Nat}, s.positionSites[p]? = some site → p < 2 ^ 32 := by
    intro p site hp
    have := (List.getElem?_eq_some_iff.mp hp).1
    omega
  have numbers : (k.pairs s).map (fun pair => [Int32.ofNat pair.1, Int32.ofNat pair.2]) =
      d.mappings.map fun x => x.path.map (·.p) := by
    refine map_eq_of_aligned ((draft_exchanges sound h).imp ?_)
    rintro pair x ⟨v, w, first, second, exchanges⟩
    exact (exchanges.numbers sound.fit).symm
  rw [← numbers]
  refine (pairs_nodup k s).map_on ?_
  rintro ⟨p, q⟩ hpair ⟨p', q'⟩ hpair' same
  obtain ⟨start, finish⟩ := mem_pairs.mp hpair
  obtain ⟨start', finish'⟩ := mem_pairs.mp hpair'
  simp only [List.cons.injEq, and_true] at same
  rw [int32_ofNat_inj (small start) (small start') same.1,
    int32_ofNat_inj (small finish) (small finish') same.2]

theorem reversed_numbers_nodup (sound : CrystalStructure.Sound r' s)
    (fits : s.positionSites.length ≤ 2 ^ 32) (h : k.draft r s = .ok d)
    (hturned : d.reversed s.encoder = some turned) :
    (turned.mappings.map fun x => x.path.map (·.p)).Nodup := by
  obtain ⟨_, _, aligned⟩ := DraftTransition.reversed_some hturned
  have numbers : (d.mappings.map fun x => x.path.map (·.p)).map List.reverse =
      turned.mappings.map fun y => y.path.map (·.p) := by
    rw [List.map_map]
    refine map_eq_of_aligned (aligned_imp aligned ?_)
    intro x hx y _ made
    obtain ⟨pair, _, v, w, first, second, exchanges⟩ :=
      aligned_mem_right (draft_exchanges sound h) hx
    rw [exchanges.reversed_numbers sound.fit made, Function.comp_apply,
      exchanges.numbers sound.fit]
    rfl
  rw [← numbers]
  exact (numbers_nodup sound fits h).map List.reverse_injective

end MetropolisTransition

end Drafts

namespace TransitionNetwork

variable {t : TransitionNetwork} {n : Nat} {m : LinkedTransition} {d : DraftTransition}

def Repeats (t : TransitionNetwork) (m : LinkedTransition) : Prop :=
  ∃ id ∈ m.mappings, ∃ id' ∈ m.mappings, id ≠ id' ∧ ∃ y y',
    t.mappings[id]? = some y ∧ t.mappings[id']? = some y' ∧ y.path = y'.path

theorem Modeled.path_at (modeled : Modeled t n m d) {place id : Nat} {y : Mapping}
    (hplace : m.mappings[place]? = some id) (hy : t.mappings[id]? = some y) :
    (d.mappings.map (·.path))[place]? = some y.path := by
  obtain ⟨x, hx, z, hz, _, path, _⟩ := aligned_left modeled.mappings hplace
  rw [hy, Option.some.injEq] at hz
  rw [List.getElem?_map, hx, Option.map_some, hz, path]

theorem Modeled.mappings_nodup (modeled : Modeled t n m d) : m.mappings.Nodup := by
  refine modeled.ascending.imp ?_
  rintro a b ⟨x, y, hx, hy, less⟩ same
  rw [same, hy, Option.some.injEq] at hx
  rw [hx] at less
  exact Nat.lt_irrefl _ less

theorem Modeled.repeats_iff (modeled : Modeled t n m d) :
    t.Repeats m ↔ ¬(d.mappings.map (·.path)).Nodup := by
  constructor
  · rintro ⟨id, hid, id', hid', apart, y, y', hy, hy', same⟩ nodup
    obtain ⟨i, hi⟩ := List.mem_iff_getElem?.mp hid
    obtain ⟨j, hj⟩ := List.mem_iff_getElem?.mp hid'
    have first := modeled.path_at hi hy
    have second := modeled.path_at hj hy'
    rw [← same] at second
    have inside := (List.getElem?_eq_some_iff.mp first).1
    have place := (List.getElem?_inj inside nodup).mp (first.trans second.symm)
    rw [place, hj, Option.some.injEq] at hi
    exact apart hi.symm
  · intro repeated
    rw [List.nodup_iff_getElem?_ne_getElem?] at repeated
    push Not at repeated
    obtain ⟨i, j, before, inside, same⟩ := repeated
    have listed : ∀ place < (d.mappings.map (·.path)).length, ∃ id y,
        m.mappings[place]? = some id ∧ t.mappings[id]? = some y := by
      intro place hplace
      rw [List.length_map] at hplace
      obtain ⟨id, hid, y, hy, _⟩ :=
        aligned_right modeled.mappings (List.getElem?_eq_getElem hplace)
      exact ⟨id, y, hid, hy⟩
    obtain ⟨id, y, hid, hy⟩ := listed i (Nat.lt_trans before inside)
    obtain ⟨id', y', hid', hy'⟩ := listed j inside
    refine ⟨id, List.mem_of_getElem? hid, id', List.mem_of_getElem? hid', ?_, y, y', hy, hy', ?_⟩
    · intro number
      rw [number] at hid
      have among := (List.getElem?_eq_some_iff.mp hid).1
      have := (List.getElem?_inj among modeled.mappings_nodup).mp (hid.trans hid'.symm)
      omega
    · rw [modeled.path_at hid hy, modeled.path_at hid' hy'] at same
      exact Option.some.inj same

section Network

variable [Trigonometry] {r : ReferenceData} {config : Config} {s : CrystalStructure} {split : Nat}

theorem DraftOf.kinetic_merges (drafted : DraftOf r config s m d) (kind : d.kind = .kinetic) :
    ∃ k ∈ r.kineticTransitions, k.index = d.reference ∧
      (¬(d.mappings.map (·.path)).Nodup ↔ s.Merges k m.isInverse) := by
  rcases drafted with ⟨forward, authored⟩ | ⟨backward, d₀, authored, turned⟩
  · cases authored with
    | kinetic k listed _ made =>
      obtain ⟨a, states, images, drafted⟩ := KineticTransition.drafted_of_ok made
      refine ⟨k, listed, drafted.reference.symm, drafted.merges_iff ?_⟩
      rw [forward, List.map_map]
      exact drafted.routes
    | metropolis k _ _ made =>
      rw [(MetropolisTransition.draft_ok made).1] at kind
      cases kind
  · obtain ⟨sameKind, sameReference, _⟩ := DraftTransition.reversed_some turned
    cases authored with
    | kinetic k listed _ made =>
      obtain ⟨a, states, images, drafted⟩ := KineticTransition.drafted_of_ok made
      refine ⟨k, listed, ?_, drafted.merges_iff ?_⟩
      · rw [sameReference, drafted.reference]
      · rw [backward, List.map_map]
        exact drafted.reversed_routes turned
    | metropolis k _ _ made =>
      rw [sameKind, (MetropolisTransition.draft_ok made).1] at kind
      cases kind

theorem DraftOf.exchange_nodup (sound : CrystalStructure.Sound r s)
    (fits : s.positionSites.length ≤ 2 ^ 32) (drafted : DraftOf r config s m d)
    (kind : d.kind = .metropolis) : (d.mappings.map (·.path)).Nodup := by
  suffices (d.mappings.map fun x => x.path.map (·.p)).Nodup by
    apply List.Nodup.of_map (·.map (·.p))
    rw [List.map_map]
    exact this
  rcases drafted with ⟨_, authored⟩ | ⟨_, d₀, authored, turned⟩
  · cases authored with
    | kinetic k _ _ made =>
      rw [(KineticTransition.draft_ok made).1] at kind
      cases kind
    | metropolis k _ _ made => exact MetropolisTransition.numbers_nodup sound fits made
  · obtain ⟨sameKind, _⟩ := DraftTransition.reversed_some turned
    cases authored with
    | kinetic k _ _ made =>
      rw [sameKind, (KineticTransition.draft_ok made).1] at kind
      cases kind
    | metropolis k _ _ made =>
      exact MetropolisTransition.reversed_numbers_nodup sound fits made turned

/-- A kinetic model repeats a path where two images of its authored path merge. -/
theorem Arranged.kinetic_repeats_iff (arranged : Arranged r config s t split)
    (sound : CrystalStructure.Sound r s) (hm : t.transitions[n]? = some m)
    (kind : m.kind = .kinetic) : t.Repeats m ↔
      ∃ k, r.kineticTransitions[m.reference]? = some k ∧ s.Merges k m.isInverse := by
  obtain ⟨d, modeled, drafted⟩ := arranged.modeled n m hm
  rw [modeled.kind] at kind
  rw [modeled.repeats_iff, modeled.reference]
  obtain ⟨k, listed, index, merges⟩ := drafted.kinetic_merges kind
  obtain ⟨place, hplace⟩ := List.mem_iff_getElem?.mp listed
  rw [ReferenceData.kineticTransition_index sound.places hplace] at index
  rw [index] at hplace
  rw [merges]
  constructor
  · intro merged
    exact ⟨k, hplace, merged⟩
  · rintro ⟨k', hk', merged⟩
    rw [hplace, Option.some.injEq] at hk'
    exact hk' ▸ merged

theorem Arranged.exchange_repeats (arranged : Arranged r config s t split)
    (sound : CrystalStructure.Sound r s) (hm : t.transitions[n]? = some m)
    (kind : m.kind = .metropolis) (repeated : t.Repeats m) :
    2 ^ 32 < s.positionSites.length := by
  obtain ⟨d, modeled, drafted⟩ := arranged.modeled n m hm
  rw [modeled.kind] at kind
  rw [modeled.repeats_iff] at repeated
  by_contra few
  exact repeated (drafted.exchange_nodup sound (Nat.le_of_not_lt few) kind)

end Network

end TransitionNetwork

end CrystalModel
