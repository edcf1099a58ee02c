import CrystalModel.Proofs.Geometry.Position
import CrystalModel.Proofs.Path.Ring
import CrystalModel.Proofs.Reference.Validation
import CrystalModel.Proofs.Transition.Build

/-! # Rings among the paths of a network

Authored jumps are checked for rings. Exchanges are not, and neither are the paths of appended
models, which are encoded a second time. -/
namespace CrystalModel

def Mapping.IsRing (y : Mapping) : Prop := ¬y.path.Nodup

theorem int32_ofNat_inj {a b : Nat} (ha : a < 2 ^ 32) (hb : b < 2 ^ 32)
    (same : Int32.ofNat a = Int32.ofNat b) : a = b := by
  have bits : (Int32.ofNat a).toBitVec.toNat = (Int32.ofNat b).toBitVec.toNat := by
    rw [same]
  change a % 2 ^ 32 = b % 2 ^ 32 at bits
  rwa [Nat.mod_eq_of_lt ha, Nat.mod_eq_of_lt hb] at bits

theorem pair_nodup_iff {α : Type} {a b : α} : ¬[a, b].Nodup ↔ a = b := by
  simp

structure PathDraft.Exchanges (e : Encoder) (pair : Nat × Nat) (x : PathDraft) (v w : Point)
    (first second : CrystalVector) : Prop where
  start : e.positions[pair.1]? = some v
  finish : e.positions[pair.2]? = some w
  points : x.fractional = [v, w]
  path : x.path = [first, second]
  startCode : e.encode v = some first
  finishCode : e.encode w = some second

theorem encodeAll_pair {e : Encoder} {v w : Point} {path : List CrystalVector} :
    e.encodeAll [v, w] = some path ↔
      ∃ first second, e.encode v = some first ∧ e.encode w = some second ∧
        path = [first, second] := by
  rw [Encoder.encodeAll, mapM_some_iff]
  constructor
  · intro h
    cases h with
    | cons first rest => cases rest with
      | cons second rest =>
        cases rest
        exact ⟨_, _, first, second, rfl⟩
  · rintro ⟨first, second, hfirst, hsecond, rfl⟩
    exact .cons hfirst (.cons hsecond .nil)

namespace PathDraft.Exchanges

variable {e : Encoder} {pair : Nat × Nat} {x : PathDraft} {v w : Point}
  {first second : CrystalVector}

/-- An exchange runs in a ring when its two positions have one number. -/
theorem nodup_iff (fit : Encoder.Fit e) (h : Exchanges e pair x v w first second) :
    ¬x.path.Nodup ↔ Int32.ofNat pair.1 = Int32.ofNat pair.2 := by
  rw [h.path, pair_nodup_iff, ← Encoder.encode_position fit h.start h.startCode,
    ← Encoder.encode_position fit h.finish h.finishCode]
  constructor
  · intro same
    rw [same]
  · exact Encoder.code_eq fit (List.mem_of_getElem? h.start) (List.mem_of_getElem? h.finish)
      h.startCode h.finishCode

theorem numbers (fit : Encoder.Fit e) (h : Exchanges e pair x v w first second) :
    x.path.map (·.p) = [Int32.ofNat pair.1, Int32.ofNat pair.2] := by
  rw [h.path, List.map_cons, List.map_cons, List.map_nil,
    Encoder.encode_position fit h.start h.startCode,
    Encoder.encode_position fit h.finish h.finishCode]

variable [Trigonometry] {offsets : List Int} {y : PathDraft}

theorem reversed_numbers (fit : Encoder.Fit e) (h : Exchanges e pair x v w first second)
    (turned : x.reversed e offsets = some y) :
    y.path.map (·.p) = [Int32.ofNat pair.2, Int32.ofNat pair.1] := by
  obtain ⟨last, hlast, made⟩ := Option.bind_eq_some_iff.mp turned
  rw [h.path] at hlast
  cases hlast
  obtain ⟨points, encoded⟩ := ofPoints_some made
  have codes := encoded.path
  rw [points, h.points] at codes
  obtain ⟨start, finish, hstart, hfinish, path⟩ := encodeAll_pair.mp codes
  rw [path, List.map_cons, List.map_cons, List.map_nil,
    Encoder.encode_moved fit h.finish h.finish h.finishCode h.finishCode hstart,
    Encoder.encode_moved fit h.finish h.start h.finishCode h.startCode hfinish]

theorem of_reversed (fit : Encoder.Fit e) (h : Exchanges e pair x v w first second)
    (turned : x.reversed e offsets = some y) (ring : ¬y.path.Nodup) :
    Int32.ofNat pair.1 = Int32.ofNat pair.2 := by
  have distinct := mt (List.Nodup.of_map (·.p)) ring
  rw [h.reversed_numbers fit turned, pair_nodup_iff] at distinct
  exact distinct.symm

end PathDraft.Exchanges

namespace MetropolisTransition

variable {m : MetropolisTransition} {r r' : ReferenceData} {s : CrystalStructure}
  {d : DraftTransition}

/-- Exchanges a position with itself: between the positions of one site, or between positions
with the same 32-bit number. -/
def SharesPosition (m : MetropolisTransition) (s : CrystalStructure) : Prop :=
  m.site0 = m.site1 ∨ ∃ first second, s.positionSites[first]? = some m.site0 ∧
    s.positionSites[second]? = some m.site1 ∧ Int32.ofNat first = Int32.ofNat second

theorem sharesPosition_of_pair {pair : Nat × Nat} (h : pair ∈ m.pairs s)
    (same : Int32.ofNat pair.1 = Int32.ofNat pair.2) : m.SharesPosition s := by
  obtain ⟨start, finish⟩ := mem_pairs.mp h
  exact Or.inr ⟨pair.1, pair.2, start, finish, same⟩

variable [Trigonometry]

theorem draft_exchanges (sound : CrystalStructure.Sound r' s) (h : m.draft r s = .ok d) :
    List.Forall₂ (fun pair x => ∃ v w first second,
      PathDraft.Exchanges s.encoder pair x v w first second) (m.pairs s) d.mappings := by
  obtain ⟨_, _, _, offsets, made⟩ := draft_ok h
  refine aligned_imp made fun pair hpair x _ made => ?_
  obtain ⟨v, w, start, finish, points⟩ := points_of_pair sound hpair
  obtain ⟨same, encoded⟩ := PathDraft.ofPoints_some made
  have codes := encoded.path
  rw [same, points] at codes
  obtain ⟨first, second, hfirst, hsecond, path⟩ := encodeAll_pair.mp codes
  exact ⟨v, w, first, second, start, finish, same.trans points, path, hfirst, hsecond⟩

theorem draft_ring (sound : CrystalStructure.Sound r' s) (h : m.draft r s = .ok d)
    (shares : m.SharesPosition s) : ∃ x ∈ d.mappings, ¬x.path.Nodup := by
  suffices ∃ pair ∈ m.pairs s, Int32.ofNat pair.1 = Int32.ofNat pair.2 by
    obtain ⟨pair, hpair, same⟩ := this
    obtain ⟨x, hx, _, _, _, _, exchanges⟩ := aligned_mem_left (draft_exchanges sound h) hpair
    exact ⟨x, hx, (exchanges.nodup_iff sound.fit).mpr same⟩
  rcases shares with one | ⟨first, second, hfirst, hsecond, same⟩
  · obtain ⟨x, hx⟩ := List.exists_mem_of_ne_nil _ (draft_ok h).2.2.1
    obtain ⟨⟨p, q⟩, hpair, _⟩ := aligned_mem_right (draft_exchanges sound h) hx
    obtain ⟨start, _⟩ := mem_pairs.mp hpair
    exact ⟨(p, p), mem_pairs.mpr ⟨start, one ▸ start⟩, rfl⟩
  · exact ⟨(first, second), mem_pairs.mpr ⟨hfirst, hsecond⟩, same⟩

theorem sharesPosition_of_draft (sound : CrystalStructure.Sound r' s) (h : m.draft r s = .ok d)
    {x : PathDraft} (hx : x ∈ d.mappings) (ring : ¬x.path.Nodup) : m.SharesPosition s := by
  obtain ⟨pair, hpair, _, _, _, _, exchanges⟩ := aligned_mem_right (draft_exchanges sound h) hx
  exact sharesPosition_of_pair hpair ((exchanges.nodup_iff sound.fit).mp ring)

theorem sharesPosition_of_reversed (sound : CrystalStructure.Sound r' s) (h : m.draft r s = .ok d)
    {turned : DraftTransition} (hturned : d.reversed s.encoder = some turned) {y : PathDraft}
    (hy : y ∈ turned.mappings) (ring : ¬y.path.Nodup) : m.SharesPosition s := by
  obtain ⟨x, hx, hxy⟩ := aligned_mem_right (DraftTransition.reversed_some hturned).2.2 hy
  obtain ⟨pair, hpair, _, _, _, _, exchanges⟩ := aligned_mem_right (draft_exchanges sound h) hx
  exact sharesPosition_of_pair hpair (exchanges.of_reversed sound.fit hxy ring)

end MetropolisTransition

namespace TransitionNetwork

variable {t : TransitionNetwork} {n : Nat} {m : LinkedTransition} {d : DraftTransition}

def HasRing (t : TransitionNetwork) (m : LinkedTransition) : Prop :=
  ∃ id ∈ m.mappings, ∃ y, t.mappings[id]? = some y ∧ y.IsRing

theorem Modeled.hasRing_iff (modeled : Modeled t n m d) :
    t.HasRing m ↔ ∃ x ∈ d.mappings, ¬x.path.Nodup := by
  constructor
  · rintro ⟨id, hid, y, hy, ring⟩
    obtain ⟨x, hx, z, hz, _, path, _⟩ := aligned_mem_left modeled.mappings hid
    rw [hy, Option.some.injEq] at hz
    subst hz
    exact ⟨x, hx, path ▸ ring⟩
  · rintro ⟨x, hx, ring⟩
    obtain ⟨id, hid, y, hy, _, path, _⟩ := aligned_mem_right modeled.mappings hx
    exact ⟨id, hid, y, hy, fun nodup => ring (path ▸ nodup)⟩

variable [Trigonometry] {r : ReferenceData} {config : Config} {s : CrystalStructure} {split : Nat}

/-- Of the kinetic models only the appended ones can run in a ring. -/
theorem Arranged.inverse_of_ring (arranged : Arranged r config s t split)
    (hm : t.transitions[n]? = some m) (kind : m.kind = .kinetic) (ring : t.HasRing m) :
    m.isInverse = true := by
  obtain ⟨d, modeled, drafted⟩ := arranged.modeled n m hm
  obtain ⟨x, hx, ring⟩ := modeled.hasRing_iff.mp ring
  rcases drafted with ⟨_, authored⟩ | ⟨inverse, _⟩
  · cases authored with
    | kinetic k _ _ drafted =>
      have openPath := (KineticTransition.draft_ok drafted).2.2.1 x hx
      exact absurd (isCrystalRing_iff.mpr ring) (Bool.eq_false_iff.mp openPath)
    | metropolis k _ _ drafted =>
      rw [modeled.kind, (MetropolisTransition.draft_ok drafted).1] at kind
      cases kind
  · exact inverse

theorem Arranged.shared_of_ring (arranged : Arranged r config s t split)
    (sound : CrystalStructure.Sound r s) (hm : t.transitions[n]? = some m)
    (kind : m.kind = .metropolis) (ring : t.HasRing m) : ∃ k ∈ r.metropolisTransitions,
      k.isActive ∧ k.index = m.reference ∧ k.SharesPosition s := by
  obtain ⟨d, modeled, drafted⟩ := arranged.modeled n m hm
  obtain ⟨x, hx, ring⟩ := modeled.hasRing_iff.mp ring
  rw [modeled.kind] at kind
  rw [modeled.reference]
  rcases drafted with ⟨_, authored⟩ | ⟨_, d₀, authored, turned⟩
  · cases authored with
    | kinetic k _ _ drafted =>
      rw [(KineticTransition.draft_ok drafted).1] at kind
      cases kind
    | metropolis k listed active drafted =>
      exact ⟨k, listed, active, (MetropolisTransition.draft_ok drafted).2.1.symm,
        MetropolisTransition.sharesPosition_of_draft sound drafted hx ring⟩
  · obtain ⟨sameKind, sameReference, _⟩ := DraftTransition.reversed_some turned
    cases authored with
    | kinetic k _ _ drafted =>
      rw [sameKind, (KineticTransition.draft_ok drafted).1] at kind
      cases kind
    | metropolis k listed active drafted =>
      exact ⟨k, listed, active,
        (sameReference.trans (MetropolisTransition.draft_ok drafted).2.1).symm,
        MetropolisTransition.sharesPosition_of_reversed sound drafted turned hx ring⟩

theorem Arranged.ring_of_shared (arranged : Arranged r config s t split)
    (sound : CrystalStructure.Sound r s) {k : MetropolisTransition}
    (listed : k ∈ r.metropolisTransitions) (active : k.isActive) (shares : k.SharesPosition s) :
    ∃ (n : Nat) (m : LinkedTransition), t.transitions[n]? = some m ∧ m.kind = .metropolis ∧
      m.reference = k.index ∧ t.HasRing m := by
  obtain ⟨n, m, d, modeled, drafted, _⟩ := arranged.authored k listed active
  obtain ⟨kind, reference, _⟩ := MetropolisTransition.draft_ok drafted
  refine ⟨n, m, modeled.found, modeled.kind.trans kind, modeled.reference.trans reference, ?_⟩
  exact modeled.hasRing_iff.mpr (MetropolisTransition.draft_ring sound drafted shares)

theorem Arranged.nodup_of_authored (arranged : Arranged r config s t split)
    (hm : t.transitions[n]? = some m) (kind : m.kind = .kinetic) (authored : m.isInverse = false)
    {id : Nat} (hid : id ∈ m.mappings) : ∃ y, t.mappings[id]? = some y ∧ y.path.Nodup := by
  obtain ⟨_, modeled, _⟩ := arranged.modeled n m hm
  obtain ⟨_, _, y, hy, _⟩ := aligned_mem_left modeled.mappings hid
  refine ⟨y, hy, by_contra fun ring => ?_⟩
  have inverse := arranged.inverse_of_ring hm kind ⟨id, hid, y, hy, ring⟩
  rw [authored] at inverse
  cases inverse

/-- Exactly the paths that stand at one position twice are found to be rings, so the paths of an
authored kinetic model never do. -/
theorem authored_paths_open :
    (∀ path, isCrystalRing path = true ↔
      ∃ (i j : Nat) (v : CrystalVector), i < j ∧ path[i]? = some v ∧ path[j]? = some v) ∧
    ∀ r config s t, build r config s = .ok t → ∀ (n : Nat) (m : LinkedTransition),
      t.transitions[n]? = some m → m.kind = .kinetic → m.isInverse = false →
        ∀ id ∈ m.mappings, ∃ y, t.mappings[id]? = some y ∧ y.path.Nodup := by
  refine ⟨fun path => isCrystalRing_iff_getElem?, ?_⟩
  intro r config s t h n m hm kind authored id hid
  obtain ⟨split, arranged⟩ := arranged_of_build h
  exact arranged.nodup_of_authored hm kind authored hid

end TransitionNetwork

open ReferenceData in
theorem TransitionNetwork.chain_path_open : ∃ s t m y,
    @TransitionNetwork.build rightAngle chain plainConfig s = .ok t ∧
    t.transitions[0]? = some m ∧ t.mappings[0]? = some y ∧ y.path.length = 2 ∧
    y.path.Nodup := by
  have found : (do
      let s ← @CrystalStructure.build rightAngle chain plainConfig
      @TransitionNetwork.build rightAngle chain plainConfig s :
        Except BuildError TransitionNetwork).toOption.any
      fun t => decide (t.transitions[0]?.map (fun m => (m.kind, m.isInverse, m.mappings)) =
        some (.kinetic, false, [0]) ∧ t.mappings[0]?.map (·.path.length) = some 2) := by
          decide +kernel
  obtain ⟨t, h, facts⟩ := ok_of_any found
  obtain ⟨s, _, network⟩ := bind_ok_iff.mp h
  obtain ⟨model, length⟩ := of_decide_eq_true facts
  obtain ⟨m, hm, parts⟩ := Option.map_eq_some_iff.mp model
  obtain ⟨z, hz, length⟩ := Option.map_eq_some_iff.mp length
  obtain ⟨kind, authored, mappings⟩ : m.kind = .kinetic ∧ m.isInverse = false ∧
      m.mappings = [0] := by simpa using parts
  obtain ⟨y, hy, openPath⟩ :=
    (@TransitionNetwork.authored_paths_open rightAngle).2 _ _ _ _ network 0 m
    hm kind authored 0 (by simp [mappings])
  cases hz.symm.trans hy
  exact ⟨s, t, m, z, network, hm, hz, length, openPath⟩

end CrystalModel
