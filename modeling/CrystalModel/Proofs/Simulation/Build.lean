import CrystalModel.Proofs.Fallible
import CrystalModel.Proofs.Transition.Build
import CrystalModel.Simulation.Build
import Mathlib.Data.List.Perm.Subperm

/-! # Selected transitions and their directions

A simulation selects every version of the transitions it lists once, in the order of the model
ids. Its directions run through the mappings of the selected models in that order. -/
namespace CrystalModel

namespace TransitionNetwork

variable {t : TransitionNetwork} {kind : SimulationKind} {reference n : Nat}

theorem mem_versionsOf : n ∈ t.versionsOf kind reference ↔
    ∃ m, t.transitions[n]? = some m ∧ m.kind = kind ∧ m.reference = reference := by
  unfold versionsOf
  exact mem_places (p := fun m : LinkedTransition => m.kind = kind ∧ m.reference = reference)
    fun _ _ _ => by simp

theorem versionsOf_nodup : (t.versionsOf kind reference).Nodup := by
  unfold versionsOf
  exact places_nodup (p := fun m : LinkedTransition => m.kind = kind ∧ m.reference = reference)
    fun _ _ _ => by simp

end TransitionNetwork

namespace SimulationModel

variable {r : ReferenceData} {t : TransitionNetwork} {sim : Simulation} {index : Nat}
  {selected : List Nat}

/-- What is selected while the listed transitions are gone through. -/
structure Selected (t : TransitionNetwork) (kind : SimulationKind) (listed : List Nat)
    (selected : List Nat) : Prop where
  nodup : selected.Nodup
  mem : ∀ n, n ∈ selected ↔ ∃ reference ∈ listed, n ∈ t.versionsOf kind reference

theorem selected_of_foldlM (h : sim.transitions.foldlM (select r t sim index) [] = .ok selected) :
    Selected t sim.kind sim.transitions selected := by
  refine foldlM_ok_induction (motive := fun done selected => Selected t sim.kind done selected)
    h ⟨List.nodup_nil, by simp⟩ ?_
  intro done reference rest old new _ ih step
  unfold select at step
  split at step
  · cases step
    refine ⟨?_, fun n => ?_⟩
    · refine List.nodup_append.mpr ⟨ih.nodup, TransitionNetwork.versionsOf_nodup.filter _, ?_⟩
      intro a ha b hb same
      subst same
      simpa [ha] using (List.mem_filter.mp hb).2
    · rw [List.mem_append, List.mem_filter, ih.mem n]
      constructor
      · rintro (⟨other, ho, hn⟩ | ⟨hn, _⟩)
        · exact ⟨other, List.mem_append_left _ ho, hn⟩
        · exact ⟨reference, by simp, hn⟩
      · rintro ⟨other, ho, hn⟩
        rcases List.mem_append.mp ho with ho | ho
        · exact Or.inl ⟨other, ho, hn⟩
        · rw [List.mem_singleton.mp ho] at hn
          by_cases known : n ∈ old
          · exact Or.inl ((ih.mem n).mp known)
          · exact Or.inr ⟨hn, by simpa using known⟩
  · cases step

def idOf (t : TransitionNetwork) (number : Nat) : Nat :=
  (t.transitions[number]?.map (·.modelId)).getD 0

theorem selection_ok (h : selection r t sim index = .ok selected) :
    Selected t sim.kind sim.transitions selected ∧
      selected.Pairwise fun a b => idOf t a ≤ idOf t b := by
  obtain ⟨found, hfound, h⟩ := bind_ok_iff.mp h
  rw [← pure_ok_iff.mp h]
  have picked := selected_of_foldlM hfound
  have perm := List.mergeSort_perm found fun a b => decide (idOf t a ≤ idOf t b)
  refine ⟨⟨perm.nodup_iff.mpr picked.nodup, fun n => perm.mem_iff.trans (picked.mem n)⟩, ?_⟩
  have sorted : (found.mergeSort fun a b => decide (idOf t a ≤ idOf t b)).Pairwise
      fun a b => decide (idOf t a ≤ idOf t b) = true :=
    List.pairwise_mergeSort (by intro a b c; simp; omega) (by intro a b; simp; omega) found
  exact sorted.imp fun h => of_decide_eq_true h

theorem Selected.model {kind : SimulationKind} {listed : List Nat}
    (picked : Selected t kind listed selected) {n : Nat} (hn : n ∈ selected) :
    ∃ m, t.transitions[n]? = some m ∧ m.kind = kind := by
  obtain ⟨_, _, hn⟩ := (picked.mem n).mp hn
  obtain ⟨m, hm, hkind, _⟩ := TransitionNetwork.mem_versionsOf.mp hn
  exact ⟨m, hm, hkind⟩

theorem checked_ok (h : checked r index = .ok sim) :
    r.simulations[index]? = some sim ∧ sim.isActive := by
  unfold checked at h
  split at h
  · cases h
  · next found =>
    obtain ⟨listed, active⟩ := Option.filter_eq_some_iff.mp found
    split at h
    · cases h
    · split at h
      · cases h
        exact ⟨listed, active⟩
      · cases h

theorem checked_defect {d : Defect} : checked r index ≠ .error (.defect d) := by
  intro h
  unfold checked at h
  split at h
  · cases h
  · split at h
    · cases h
    · split at h <;> cases h

theorem selection_defect {sim : Simulation} {d : Defect} :
    selection r t sim index ≠ .error (.defect d) := by
  intro h
  unfold selection at h
  cases found : sim.transitions.foldlM (select r t sim index) [] with
  | ok selected =>
    rw [found] at h
    cases h
  | error e =>
    rw [found] at h
    cases h
    obtain ⟨_, _, _, step⟩ := foldlM_error found
    unfold select at step
    split at step <;> cases step

def mappingsAt (t : TransitionNetwork) (x : Nat × Nat) : List (Nat × Nat × Mapping) :=
  match t.transitions[x.1]? with
  | none => []
  | some model => model.mappings.filterMap fun mapping =>
    t.mappings[mapping]?.map fun m => (x.2, mapping, m)

theorem mem_mappingsAt {n place c id : Nat} {y : Mapping} :
    (c, id, y) ∈ mappingsAt t (n, place) ↔ c = place ∧ ∃ m, t.transitions[n]? = some m ∧
      id ∈ m.mappings ∧ t.mappings[id]? = some y := by
  cases found : t.transitions[n]? with
  | none => simp [mappingsAt, found]
  | some m =>
    simp only [mappingsAt, found, List.mem_filterMap, Option.map_eq_some_iff, Prod.mk.injEq,
      Option.some.injEq, exists_eq_left']
    constructor
    · rintro ⟨_, hid, _, hy, rfl, rfl, rfl⟩
      exact ⟨rfl, hid, hy⟩
    · rintro ⟨rfl, hid, hy⟩
      exact ⟨id, hid, y, hy, rfl, rfl, rfl⟩

theorem selectedMappings_eq :
    selectedMappings t selected = selected.zipIdx.flatMap (mappingsAt t) :=
  rfl

theorem mem_selectedMappings {c id : Nat} {y : Mapping} :
    (c, id, y) ∈ selectedMappings t selected ↔ ∃ n m, selected[c]? = some n ∧
      t.transitions[n]? = some m ∧ id ∈ m.mappings ∧ t.mappings[id]? = some y := by
  simp only [selectedMappings_eq, List.mem_flatMap, Prod.exists, List.mem_zipIdx_iff_getElem?,
    mem_mappingsAt]
  constructor
  · rintro ⟨n, place, hn, rfl, m, hm, hid, hy⟩
    exact ⟨n, m, hn, hm, hid, hy⟩
  · rintro ⟨n, m, hn, hm, hid, hy⟩
    exact ⟨n, c, hn, rfl, m, hm, hid, hy⟩

/-- The order of the directions: by the model id of the transition, then by that of the mapping. -/
def Earlier (t : TransitionNetwork) (selected : List Nat) (a b : Nat × Nat × Mapping) : Prop :=
  ∃ n n', selected[a.1]? = some n ∧ selected[b.1]? = some n' ∧
    (idOf t n < idOf t n' ∨ idOf t n = idOf t n' ∧ a.2.2.modelId < b.2.2.modelId)

theorem collectionsOf_getElem? {kind : SimulationKind} {listed : List Nat}
    (picked : Selected t kind listed selected) {c n : Nat} {m : LinkedTransition}
    (hn : selected[c]? = some n) (hm : t.transitions[n]? = some m) :
    (collectionsOf t selected)[c]? = some ⟨c, n, m.mobileMask, m.rules⟩ := by
  have keep : ∀ x ∈ selected.zipIdx, ∃ y, (t.transitions[x.1]?.map fun model =>
      (⟨x.2, x.1, model.mobileMask, model.rules⟩ : JumpCollection)) = some y := by
    rintro ⟨n, c⟩ hx
    obtain ⟨m, hm, _⟩ := picked.model (List.mem_of_getElem? (List.mem_zipIdx_iff_getElem?.mp hx))
    exact ⟨_, by rw [hm]; rfl⟩
  have found := getElem?_filterMap_of_isSome keep c
  rw [List.getElem?_zipIdx, hn] at found
  refine found.trans ?_
  simp [hm]

theorem mem_pathLinks {structured : CrystalStructure} {path : List CrystalVector} {l : PathLink}
    (h : l ∈ pathLinks structured path) : ∃ here c, path[l.pathId]? = some here ∧
      structured.cellPositions[here.p.toInt.toNat]? = some c ∧ l.linkId < c.targets.length := by
  obtain ⟨⟨here, i⟩, hhere, h⟩ := List.mem_flatMap.mp h
  obtain ⟨⟨target, j⟩, htarget, h⟩ := List.mem_filterMap.mp h
  have place := List.mem_zipIdx_iff_getElem?.mp hhere
  have listed := List.mem_zipIdx_iff_getElem?.mp htarget
  simp only at h listed
  split at h
  · cases h
    cases found : structured.cellPositions[here.p.toInt.toNat]? with
    | none => simp only [found, Option.map_none, Option.getD_none, List.getElem?_nil,
        reduceCtorEq] at listed
    | some c =>
      simp only [found, Option.map_some, Option.getD_some] at listed
      exact ⟨here, c, place, found, (List.getElem?_eq_some_iff.mp listed).1⟩
  · cases h

/-- A direction beside the model and the mapping that it was made of. -/
structure Directed (structured : CrystalStructure) (t : TransitionNetwork) (s : SimulationModel)
    (d : Nat) (direction : JumpDirection) (n : Nat) (m : LinkedTransition) (y : Mapping) :
    Prop where
  number : direction.id = d
  selected : s.transitions[direction.collection]? = some n
  model : t.transitions[n]? = some m
  kind : m.kind = s.kind
  listed : direction.mapping ∈ m.mappings
  mapping : t.mappings[direction.mapping]? = some y
  position : direction.position = y.start
  links : direction.links = pathLinks structured y.path
  collection : s.collections[direction.collection]? =
    some ⟨direction.collection, n, m.mobileMask, m.rules⟩

section Arranged

open TransitionNetwork

variable [Trigonometry] {config : Config} {structured : CrystalStructure} {split : Nat}

theorem eq_of_idOf (arranged : Arranged r config structured t split) {n n' : Nat}
    {m m' : LinkedTransition} (hm : t.transitions[n]? = some m)
    (hm' : t.transitions[n']? = some m') (kind : m.kind = m'.kind)
    (same : idOf t n = idOf t n') : n = n' := by
  simp only [idOf, hm, hm', Option.map_some, Option.getD_some] at same
  rcases arranged.number n m hm with ⟨first, hn⟩ | ⟨first, hn⟩ <;>
    rcases arranged.number n' m' hm' with ⟨second, hn'⟩ | ⟨second, hn'⟩
  · omega
  · rw [first, second] at kind
    cases kind
  · rw [first, second] at kind
    cases kind
  · omega

theorem Selected.strict (arranged : Arranged r config structured t split) {kind : SimulationKind}
    {listed : List Nat} (picked : Selected t kind listed selected)
    (sorted : selected.Pairwise fun a b => idOf t a ≤ idOf t b) :
    selected.Pairwise fun a b => idOf t a < idOf t b := by
  refine (sorted.and picked.nodup).imp_of_mem ?_
  rintro a b ha hb ⟨le, ne⟩
  obtain ⟨m, hm, hkind⟩ := picked.model ha
  obtain ⟨m', hm', hkind'⟩ := picked.model hb
  refine Nat.lt_of_le_of_ne le fun same => ne ?_
  exact eq_of_idOf arranged hm hm' (hkind.trans hkind'.symm) same

theorem selectedMappings_ascending (arranged : Arranged r config structured t split)
    {kind : SimulationKind} {listed : List Nat} (picked : Selected t kind listed selected)
    (sorted : selected.Pairwise fun a b => idOf t a ≤ idOf t b) :
    (selectedMappings t selected).Pairwise (Earlier t selected) := by
  have strict := picked.strict arranged sorted
  rw [selectedMappings_eq, List.pairwise_flatMap]
  constructor
  · rintro ⟨n, c⟩ hx
    have hn := List.mem_zipIdx_iff_getElem?.mp hx
    obtain ⟨m, hm, _⟩ := picked.model (List.mem_of_getElem? hn)
    obtain ⟨d, modeled, _⟩ := arranged.modeled n m hm
    simp only [mappingsAt, hm]
    refine List.Pairwise.filterMap _ ?_ modeled.ascending
    rintro a b ⟨x, y, hx, hy, less⟩ u hu v hv
    simp only [hx, hy, Option.map_some, Option.some.injEq] at hu hv
    subst hu hv
    exact ⟨n, n, hn, hn, Or.inr ⟨rfl, less⟩⟩
  · rw [List.pairwise_iff_getElem]
    intro i j hi hj hij
    rw [List.length_zipIdx] at hi hj
    rw [List.getElem_zipIdx, List.getElem_zipIdx]
    rintro ⟨c, id, y⟩ hu ⟨c', id', y'⟩ hv
    obtain ⟨rfl, _⟩ := mem_mappingsAt.mp hu
    obtain ⟨rfl, _⟩ := mem_mappingsAt.mp hv
    refine ⟨selected[i], selected[j], by simp [hi], by simp [hj], Or.inl ?_⟩
    exact List.pairwise_iff_getElem.mp strict i j hi hj hij

theorem selectedMappings_distinct (arranged : Arranged r config structured t split)
    {kind : SimulationKind} {listed : List Nat} (picked : Selected t kind listed selected)
    (sorted : selected.Pairwise fun a b => idOf t a ≤ idOf t b) :
    ((selectedMappings t selected).map (·.2.1)).Nodup := by
  have owner : ∀ {c id : Nat} {y : Mapping}, (c, id, y) ∈ selectedMappings t selected →
      t.mappings[id]? = some y ∧ selected[c]? = some y.transition := by
    intro c id y hx
    obtain ⟨n, m, hn, hm, hid, hy⟩ := mem_selectedMappings.mp hx
    obtain ⟨d, modeled, _⟩ := arranged.modeled n m hm
    obtain ⟨_, _, z, hz, belongs, _⟩ := aligned_mem_left modeled.mappings hid
    rw [hy, Option.some.injEq] at hz
    exact ⟨hy, hz ▸ belongs ▸ hn⟩
  rw [List.Nodup, List.pairwise_map]
  refine (selectedMappings_ascending arranged picked sorted).imp_of_mem ?_
  rintro ⟨c, id, y⟩ ⟨c', id', y'⟩ ha hb ⟨n, n', hn, hn', less⟩ same
  obtain ⟨hy, hc⟩ := owner ha
  obtain ⟨hy', hc'⟩ := owner hb
  simp only at same
  rw [same, hy', Option.some.injEq] at hy
  subst hy
  simp only at hn hn' less
  rw [hc, Option.some.injEq] at hn
  rw [hc', Option.some.injEq] at hn'
  subst hn hn'
  omega

theorem length_selectedMappings_le (arranged : Arranged r config structured t split)
    {kind : SimulationKind} {listed : List Nat} (picked : Selected t kind listed selected)
    (sorted : selected.Pairwise fun a b => idOf t a ≤ idOf t b) :
    (selectedMappings t selected).length ≤ t.mappings.length := by
  have subset : (selectedMappings t selected).map (·.2.1) ⊆ List.range t.mappings.length := by
    intro id hid
    obtain ⟨⟨c, _, y⟩, hx, rfl⟩ := List.mem_map.mp hid
    obtain ⟨_, _, _, _, _, hy⟩ := mem_selectedMappings.mp hx
    exact List.mem_range.mpr (List.getElem?_eq_some_iff.mp hy).1
  have few := ((selectedMappings_distinct arranged picked sorted).subperm subset).length_le
  simpa using few

theorem directionsOf_getElem? (field : Point) (d : Nat) :
    (directionsOf structured t field selected)[d]? =
      (selectedMappings t selected)[d]?.map fun x =>
        ⟨d, x.1, x.2.1, x.2.2.start, projection structured field x.2.2,
          pathLinks structured x.2.2.path⟩ := by
  rw [directionsOf, List.getElem?_map, List.getElem?_zipIdx, Option.map_map, Nat.zero_add]
  rfl

variable [d : RandomSeeds] {s : SimulationModel} {issues : List Issue}

theorem build_ok (h : build r config structured t index = .ok (s, issues)) :
    ∃ sim, checked r index = .ok sim ∧ selection r t sim index = .ok s.transitions ∧
      s.simulation = index ∧ s.kind = sim.kind ∧
      s.collections = collectionsOf t s.transitions ∧
      s.directions = directionsOf structured t (fieldOf structured sim) s.transitions ∧
      s.index = JumpIndex.ofEntries r.particles structured.positionTotal
        (entries s.collections s.directions) := by
  obtain ⟨sim, hsim, h⟩ := bind_ok_iff.mp h
  obtain ⟨selected, hselected, h⟩ := bind_ok_iff.mp h
  obtain ⟨⟨⟩, _, h⟩ := bind_ok_iff.mp h
  have parts := congrArg Prod.fst (pure_ok_iff.mp h)
  simp only at parts
  rw [← parts]
  exact ⟨sim, hsim, hselected, rfl, rfl, rfl, rfl, rfl⟩

theorem build_of_ascending {sim : Simulation} (hsim : checked r index = .ok sim)
    (found : sim.transitions.foldlM (select r t sim index) [] = .ok selected)
    (ascending : selected.Pairwise fun a b => idOf t a ≤ idOf t b) :
    build r config structured t index = ofSelection r config structured t index sim selected := by
  have same : selection r t sim index = .ok selected := by
    have sorted : selected.mergeSort (fun a b => decide (idOf t a ≤ idOf t b)) = selected :=
      List.mergeSort_of_pairwise (ascending.imp decide_eq_true)
    simp only [selection, found, bind, Except.bind]
    exact congrArg Except.ok sorted
  simp only [build, hsim, same, bind, Except.bind]

omit d in
/-- Another source of seeds gives the same model with another seed. -/
theorem build_reseeded {sim : Simulation} (hsim : r.simulations[index]? = some sim)
    (first second : RandomSeeds) : build (d := second) r config structured t index =
      (build (d := first) r config structured t index).map fun b =>
        ({ b.1 with seed := (sim.seedWith (d := second) config).1 },
          (sim.seedWith (d := second) config).2) := by
  unfold build
  cases accepted : checked r index with
  | error e => rfl
  | ok s =>
    obtain rfl := Option.some.inj (hsim.symm.trans (checked_ok accepted).1)
    cases selected : selection r t sim index with
    | error e => simp only [bind, Except.bind, selected, Except.map]
    | ok found =>
      simp only [bind, Except.bind, selected, ofSelection]
      cases (JumpIndex.ofEntries r.particles structured.positionTotal
        (entries (collectionsOf t found)
          (directionsOf structured t (fieldOf structured sim) found))).verify with
      | error e => rfl
      | ok _ => rfl

theorem seed_of_build {sim : Simulation} (hsim : r.simulations[index]? = some sim)
    (h : build r config structured t index = .ok (s, issues)) :
    sim.seedWith config = (s.seed, issues) := by
  obtain ⟨_, accepted, h⟩ := bind_ok_iff.mp h
  obtain rfl := Option.some.inj (hsim.symm.trans (checked_ok accepted).1)
  obtain ⟨_, _, h⟩ := bind_ok_iff.mp h
  obtain ⟨⟨⟩, _, h⟩ := bind_ok_iff.mp h
  have parts := pure_ok_iff.mp h
  rw [Prod.ext_iff] at parts
  exact Prod.ext (congrArg SimulationModel.seed parts.1) parts.2

theorem verify_of_build (h : build r config structured t index = .ok (s, issues)) :
    s.index.verify = .ok () := by
  obtain ⟨sim, _, h⟩ := bind_ok_iff.mp h
  obtain ⟨selected, _, h⟩ := bind_ok_iff.mp h
  obtain ⟨⟨⟩, verified, h⟩ := bind_ok_iff.mp h
  have parts := congrArg Prod.fst (pure_ok_iff.mp h)
  simp only at parts
  rw [← parts]
  exact verified

theorem directed_of_build (h : build r config structured t index = .ok (s, issues)) {d : Nat}
    {direction : JumpDirection} (hd : s.directions[d]? = some direction) :
    ∃ n m y, Directed structured t s d direction n m y := by
  obtain ⟨sim, _, hselection, _, hkind, hcollections, hdirections, _⟩ := build_ok h
  obtain ⟨picked, sorted⟩ := selection_ok hselection
  rw [hdirections, directionsOf_getElem?] at hd
  obtain ⟨⟨c, id, y⟩, hx, rfl⟩ := Option.map_eq_some_iff.mp hd
  obtain ⟨n, m, hn, hm, hid, hy⟩ := mem_selectedMappings.mp (List.mem_of_getElem? hx)
  obtain ⟨m', hm', kind⟩ := picked.model (List.mem_of_getElem? hn)
  rw [hm, Option.some.injEq] at hm'
  subst hm'
  refine ⟨n, m, y, rfl, hn, hm, kind.trans hkind.symm, hid, hy, rfl, rfl, ?_⟩
  rw [hcollections]
  exact collectionsOf_getElem? picked hn hm

theorem direction_number (h : build r config structured t index = .ok (s, issues)) {d : Nat}
    {direction : JumpDirection} (hd : s.directions[d]? = some direction) : direction.id = d := by
  obtain ⟨_, _, _, directed⟩ := directed_of_build h hd
  exact directed.number

end Arranged

end SimulationModel

end CrystalModel
