import CrystalModel.Proofs.Reference.Validation
import CrystalModel.Proofs.Simulation.Build
import CrystalModel.Proofs.Simulation.Index

/-! # Jump tables

The row of a particle on a position lists exactly the directions that start there under a rule
that starts with the particle. Directions are numbered in the order of the model ids of their
transitions and mappings, and rows keep that order. -/
namespace CrystalModel.SimulationModel

/-- Direction `d` starts on position `p`, under a rule that starts with particle `k`. -/
def Opens (s : SimulationModel) (t : TransitionNetwork) (p k d : Nat) : Prop :=
  k ≠ voidIndex ∧ ∃ direction c, s.directions[d]? = some direction ∧ direction.position = p ∧
    s.collections[direction.collection]? = some c ∧
    ∃ id ∈ c.rules, ∃ x, t.rules[id]? = some x ∧ ∃ b, x.rule.start.head? = some b ∧ b.toNat = k

/-- The model ids of the transition and of the mapping of a direction. -/
def jumpKey (s : SimulationModel) (t : TransitionNetwork) (d : Nat) : Option (Nat × Nat) := do
  let direction ← s.directions[d]?
  let c ← s.collections[direction.collection]?
  let model ← t.transitions[c.transition]?
  let mapping ← t.mappings[direction.mapping]?
  return (model.modelId, mapping.modelId)

def Precedes (s : SimulationModel) (t : TransitionNetwork) (a b : Nat) : Prop :=
  ∃ x y, s.jumpKey t a = some x ∧ s.jumpKey t b = some y ∧ (x.1 < y.1 ∨ x.1 = y.1 ∧ x.2 < y.2)

/-- The places of a particle on a position hold `ids`, and nothing but the directions that are
open. -/
structure ExactRow (s : SimulationModel) (t : TransitionNetwork) (p k : Nat) (ids : List Nat) :
    Prop where
  assigned : s.index.assigned p k =
    ids.map Int32.ofNat ++ List.replicate (s.index.maxDirections - ids.length) (-1)
  fits : ids.length ≤ s.index.maxDirections
  count : JumpIndex.cell? s.index.counts p k = some (Int32.ofNat ids.length)
  mem : ∀ d, d ∈ ids ↔ s.Opens t p k d
  nodup : ids.Nodup
  ordered : ids.Pairwise (s.Precedes t)
  mobility : ∃ mobility, JumpIndex.cell? s.index.mobilities p k = some mobility ∧
    (mobility = .immobile ↔ ids = [])

/-- Every position has an exact row for every particle, and the mask selects the particles that
can start a jump there and are no vacancies. The rows lie one after the other in one buffer, as
wide as the longest one. -/
structure ExactTable (r : ReferenceData) (structured : CrystalStructure) (t : TransitionNetwork)
    (s : SimulationModel) : Prop where
  numbered : ∀ (d : Nat) (direction : JumpDirection), s.directions[d]? = some direction →
    direction.id = d
  positions : s.index.counts.length = structured.positionTotal
  particles : s.index.particleCount = r.particles.length
  buffer : s.index.assignments.length =
    structured.positionTotal * r.particles.length * s.index.maxDirections
  rows : ∀ p < structured.positionTotal, ∀ (k : Nat) (particle : Particle),
    r.particles[k]? = some particle → ∃ ids mask, s.ExactRow t p k ids ∧
      s.index.selectionMasks[p]? = some mask ∧
      (mask.toNat.testBit k ↔ ids ≠ [] ∧ particle.isVacancy = false)

open TransitionNetwork

section Network

variable [Trigonometry] [d : RandomSeeds] {r : ReferenceData} {config : Config}
  {structured : CrystalStructure} {t : TransitionNetwork} {index split : Nat} {s : SimulationModel}
  {issues : List Issue}

theorem jumpKey_of_direction (h : build r config structured t index = .ok (s, issues)) {d : Nat}
    {c id : Nat} {y : Mapping} {n : Nat}
    (hx : (selectedMappings t s.transitions)[d]? = some (c, id, y))
    (hn : s.transitions[c]? = some n) : s.jumpKey t d = some (idOf t n, y.modelId) := by
  obtain ⟨sim, _, hselection, _, _, hcollections, hdirections, _⟩ := build_ok h
  obtain ⟨selects, _⟩ := selection_ok hselection
  obtain ⟨n', m, hn', hm, _, hy⟩ := mem_selectedMappings.mp (List.mem_of_getElem? hx)
  rw [hn, Option.some.injEq] at hn'
  subst hn'
  simp [jumpKey, hdirections, directionsOf_getElem?, hx, hcollections,
    collectionsOf_getElem? selects hn hm, hm, hy, idOf]

theorem precedes_of_lt (h : build r config structured t index = .ok (s, issues))
    (arranged : Arranged r config structured t split) {a b : Nat} (hab : a < b)
    (hb : b < s.directions.length) : s.Precedes t a b := by
  obtain ⟨sim, _, hselection, _, _, _, hdirections, _⟩ := build_ok h
  obtain ⟨selects, sorted⟩ := selection_ok hselection
  have count : s.directions.length = (selectedMappings t s.transitions).length := by
    rw [hdirections, directionsOf, List.length_map, List.length_zipIdx]
  have hb' : b < (selectedMappings t s.transitions).length := count ▸ hb
  have ha' : a < (selectedMappings t s.transitions).length := Nat.lt_trans hab hb'
  obtain ⟨n, n', hn, hn', less⟩ := List.pairwise_iff_getElem.mp
    (selectedMappings_ascending arranged selects sorted) a b ha' hb' hab
  exact ⟨_, _, jumpKey_of_direction h (List.getElem?_eq_getElem ha') hn,
    jumpKey_of_direction h (List.getElem?_eq_getElem hb') hn', less⟩

omit d in
theorem mobileMask_iff (arranged : Arranged r config structured t split)
    (bytes : ∀ x ∈ t.rules, ∀ b ∈ x.rule.start, b.toNat < particleLimit) {n : Nat}
    {m : LinkedTransition} (hm : t.transitions[n]? = some m) {k : Nat} (void : k ≠ voidIndex) :
    m.mobileMask.toNat.testBit k ↔ ∃ id ∈ m.rules, ∃ x, t.rules[id]? = some x ∧
      ∃ b, x.rule.start.head? = some b ∧ b.toNat = k := by
  obtain ⟨d, modeled, _⟩ := arranged.modeled n m hm
  have small : ∀ rule ∈ d.rules, ∀ b ∈ rule.start, b.toNat < particleLimit := by
    intro rule hr b hb
    obtain ⟨_, _, x, hx, _, same⟩ := aligned_mem_right modeled.rules hr
    exact bytes x (List.mem_of_getElem? hx) b (same ▸ hb)
  rw [modeled.mask, mobileMask_testBit small void]
  constructor
  · rintro ⟨rule, hr, b, hb, hk⟩
    obtain ⟨id, hid, x, hx, _, same⟩ := aligned_mem_right modeled.rules hr
    exact ⟨id, hid, x, hx, b, same ▸ hb, hk⟩
  · rintro ⟨id, hid, x, hx, b, hb, hk⟩
    obtain ⟨rule, hr, y, hy, _, same⟩ := aligned_mem_left modeled.rules hid
    rw [hx, Option.some.injEq] at hy
    subst hy
    exact ⟨rule, hr, b, same ▸ hb, hk⟩

theorem mem_opened_iff (h : build r config structured t index = .ok (s, issues))
    (arranged : Arranged r config structured t split)
    (bytes : ∀ x ∈ t.rules, ∀ b ∈ x.rule.start, b.toNat < particleLimit) {p k d : Nat}
    (hk : k < particleLimit) :
    d ∈ JumpIndex.opened (entries s.collections s.directions) p k ↔ s.Opens t p k d := by
  have start : ∀ {direction : JumpDirection}, s.directions[d]? = some direction →
      (canStart ((s.collections[direction.collection]?.map (·.mask)).getD 0) k ↔
        k ≠ voidIndex ∧ ∃ c, s.collections[direction.collection]? = some c ∧ ∃ id ∈ c.rules,
          ∃ x, t.rules[id]? = some x ∧ ∃ b, x.rule.start.head? = some b ∧ b.toNat = k) := by
    intro direction hd
    obtain ⟨n, m, _, directed⟩ := directed_of_build h hd
    simp only [directed.collection, Option.map_some, Option.getD_some, Option.some.injEq,
      exists_eq_left']
    rw [canStart_iff hk]
    constructor
    · rintro ⟨void, bit⟩
      exact ⟨void, (mobileMask_iff arranged bytes directed.model void).mp bit⟩
    · rintro ⟨void, rule⟩
      exact ⟨void, (mobileMask_iff arranged bytes directed.model void).mpr rule⟩
  rw [JumpIndex.mem_opened]
  constructor
  · rintro ⟨entry, hentry, hp, can, hd⟩
    obtain ⟨direction, hmem, rfl⟩ := List.mem_map.mp hentry
    obtain ⟨place, hplace⟩ := List.mem_iff_getElem?.mp hmem
    simp only at hp hd
    rw [direction_number h hplace] at hd
    subst hd
    obtain ⟨void, c, hc, rule⟩ := (start hplace).mp can
    exact ⟨void, direction, c, hplace, hp, hc, rule⟩
  · rintro ⟨void, direction, c, hd, hp, hc, rule⟩
    exact ⟨_, List.mem_map_of_mem (List.mem_of_getElem? hd), hp,
      (start hd).mpr ⟨void, c, hc, rule⟩, direction_number h hd⟩

theorem opened_ascending (h : build r config structured t index = .ok (s, issues)) (p k : Nat) :
    (JumpIndex.opened (entries s.collections s.directions) p k).Pairwise (· < ·) := by
  have ids : (entries s.collections s.directions).Pairwise fun a b => a.id < b.id := by
    rw [entries, List.pairwise_map, List.pairwise_iff_getElem]
    intro i j hi hj hij
    change s.directions[i].id < s.directions[j].id
    rw [direction_number h (List.getElem?_eq_getElem hi),
      direction_number h (List.getElem?_eq_getElem hj)]
    exact hij
  rw [JumpIndex.opened, List.pairwise_map]
  exact ids.filter _

theorem exactTable_of_build (network : TransitionNetwork.build r config structured = .ok t)
    (bytes : ∀ x ∈ t.rules, ∀ b ∈ x.rule.start, b.toNat < particleLimit)
    (h : build r config structured t index = .ok (s, issues)) : ExactTable r structured t s := by
  obtain ⟨split, arranged⟩ := arranged_of_build network
  obtain ⟨_, _, _, _, places, _⟩ := TransitionNetwork.build_ok network
  obtain ⟨_, few, _⟩ := ReferenceData.checkPlaces_ok places
  obtain ⟨_, _, _, _, _, _, _, hindex⟩ := build_ok h
  have sized := JumpIndex.sized_ofEntries r.particles structured.positionTotal
    (entries s.collections s.directions)
  rw [← hindex] at sized
  refine ⟨fun d direction hd => direction_number h hd, sized.counts, sized.particleCount,
    by rw [sized.maxDirections]; exact sized.assignments, ?_⟩
  intro p hp k particle hk
  have inside := (List.getElem?_eq_some_iff.mp hk).1
  have vacancy : JumpIndex.isVacancy r.particles k = particle.isVacancy := by
    simp [JumpIndex.isVacancy, hk]
  have filled := JumpIndex.filled_ofEntries few (entries s.collections s.directions) hp inside
  have fits := JumpIndex.opened_length_le_width (entries s.collections s.directions) hp
    inside
  rw [← hindex] at filled fits
  have ascending := opened_ascending h p k
  have mem (id : Nat) : id ∈ JumpIndex.opened (entries s.collections s.directions) p k ↔
      s.Opens t p k id :=
    mem_opened_iff h arranged bytes (Nat.lt_of_lt_of_le inside few)
  obtain ⟨mask, hmask, bit⟩ := filled.mask
  refine ⟨_, mask, ⟨?_, fits, ?_, mem, ?_, ?_, ?_⟩, hmask, ?_⟩
  · rw [filled.assigned, JumpIndex.padded, List.length_map]
  · rw [filled.count, List.length_map]
  · exact ascending.imp Nat.ne_of_lt
  · refine ascending.imp_of_mem fun _ hb less => precedes_of_lt h arranged less ?_
    obtain ⟨_, direction, _, hd, _⟩ := (mem _).mp hb
    exact (List.getElem?_eq_some_iff.mp hd).1
  · refine ⟨_, filled.mobility, ?_⟩
    rw [JumpIndex.mobilityOf_immobile, List.map_eq_nil_iff]
  · rw [bit, JumpIndex.mobilityOf_selectable, vacancy, ne_eq, List.map_eq_nil_iff]

/-- No build ends with a count that differs from its row, as long as direction ids are 32-bit
numbers. -/
theorem build_jumpCount (network : TransitionNetwork.build r config structured = .ok t)
    (few : t.mappings.length < 2 ^ 31) (p k : Nat) :
    build r config structured t index ≠ .error (.defect (.jumpCount p k)) := by
  obtain ⟨split, arranged⟩ := arranged_of_build network
  obtain ⟨_, _, _, _, places, _⟩ := TransitionNetwork.build_ok network
  obtain ⟨_, inBytes, _⟩ := ReferenceData.checkPlaces_ok places
  intro h
  unfold build at h
  cases hsim : checked r index with
  | error e =>
    rw [hsim] at h
    cases h
    exact checked_defect hsim
  | ok sim =>
    rw [hsim] at h
    cases hselected : selection r t sim index with
    | error e =>
      simp only [bind, Except.bind, hselected] at h
      cases h
      exact selection_defect hselected
    | ok selected =>
      obtain ⟨selects, sorted⟩ := selection_ok hselected
      have short := Nat.lt_of_le_of_lt (length_selectedMappings_le arranged selects sorted) few
      have fine : (JumpIndex.ofEntries r.particles structured.positionTotal
          (entries (collectionsOf t selected)
            (directionsOf structured t (fieldOf structured sim) selected))).verify = .ok () := by
        refine JumpIndex.verify_ofEntries inBytes ?_
          (by simpa [entries, directionsOf] using short)
        intro entry hentry
        obtain ⟨direction, hd, rfl⟩ := List.mem_map.mp hentry
        obtain ⟨d, hd⟩ := List.mem_iff_getElem?.mp hd
        rw [directionsOf_getElem?] at hd
        obtain ⟨x, hx, rfl⟩ := Option.map_eq_some_iff.mp hd
        exact Nat.lt_trans (List.getElem?_eq_some_iff.mp hx).1 short
      simp only [bind, Except.bind, hselected, ofSelection, fine] at h
      cases h

theorem starts_of_build (structural : CrystalStructure.build r config = .ok structured)
    (network : TransitionNetwork.build r config structured = .ok t)
    (few : structured.positionTotal < 2 ^ 31)
    (h : build r config structured t index = .ok (s, issues)) :
    ∀ direction ∈ s.directions, direction.position < structured.positionTotal := by
  obtain ⟨split, arranged⟩ := arranged_of_build network
  have sound := CrystalStructure.sound_of_build structural
  have aligned : structured.encoder.positions.length = structured.positionTotal :=
    sound.positions.aligned
  intro direction hmem
  obtain ⟨d, hd⟩ := List.mem_iff_getElem?.mp hmem
  obtain ⟨n, m, y, directed⟩ := directed_of_build h hd
  have routed := arranged.routed sound directed.model directed.listed directed.mapping
  have first : 0 < y.path.length := Nat.lt_of_lt_of_le Nat.two_pos routed.low
  obtain ⟨place, inside, same⟩ := routed.place (List.getElem?_eq_getElem first)
  rw [directed.position, Mapping.start, startPosition, List.head?_eq_getElem?,
    List.getElem?_eq_getElem first, Option.map_some, Option.getD_some, same,
    Int32.toInt_ofNat_of_lt (by omega), Int.toNat_natCast]
  omega

/-- The jump table of every built simulation is exact and passes the check. No direction starts
outside of the table, and the check fails no build whose direction ids are 32-bit numbers. -/
theorem jumpTable_exact (network : TransitionNetwork.build r config structured = .ok t)
    (bytes : ∀ x ∈ t.rules, ∀ b ∈ x.rule.start, b.toNat < particleLimit) (index : Nat) :
    (∀ s issues, build r config structured t index = .ok (s, issues) →
      ExactTable r structured t s ∧ s.index.verify = .ok ()) ∧
    (CrystalStructure.build r config = .ok structured → structured.positionTotal < 2 ^ 31 →
      ∀ s issues, build r config structured t index = .ok (s, issues) →
        ∀ direction ∈ s.directions, direction.position < structured.positionTotal) ∧
    (t.mappings.length < 2 ^ 31 → ∀ p k,
      build r config structured t index ≠ .error (.defect (.jumpCount p k))) := by
  refine ⟨fun s issues h => ⟨exactTable_of_build network bytes h, verify_of_build h⟩,
    fun structural few s issues h => starts_of_build structural network few h,
    fun few p k => build_jumpCount network few p k⟩

end Network

open ReferenceData in
theorem chain_jumpTable_exact : ∃ structured t s,
    @TransitionNetwork.build rightAngle chain plainConfig structured = .ok t ∧
    (∀ x ∈ t.rules, ∀ b ∈ x.rule.start, b.toNat < particleLimit) ∧
    s.directions.length = 1 ∧ ExactTable chain structured t s := by
  have found : (do
      let structured ← @CrystalStructure.build rightAngle chain plainConfig
      let t ← @TransitionNetwork.build rightAngle chain plainConfig structured
      let built ← @SimulationModel.build rightAngle _ chain plainConfig structured t 0
      return (t, built.1) : Except BuildError (TransitionNetwork × SimulationModel)).toOption.any
        fun x => decide (∀ y ∈ x.1.rules, ∀ b ∈ y.rule.start, b.toNat < particleLimit) &&
          decide (x.2.directions.length = 1) := by decide +kernel
  obtain ⟨⟨t, s⟩, h, facts⟩ := ok_of_any found
  obtain ⟨_, hstructured, h⟩ := bind_ok_iff.mp h
  obtain ⟨_, network, h⟩ := bind_ok_iff.mp h
  obtain ⟨built, simulation, h⟩ := bind_ok_iff.mp h
  cases pure_ok_iff.mp h
  obtain ⟨bytes, one⟩ := Bool.and_eq_true_iff.mp facts
  have table := @jumpTable_exact rightAngle _ _ _ _ _ network (of_decide_eq_true bytes) 0
  exact ⟨_, _, built.1, network, of_decide_eq_true bytes, of_decide_eq_true one,
    (table.1 built.1 built.2 simulation).1⟩

end CrystalModel.SimulationModel
