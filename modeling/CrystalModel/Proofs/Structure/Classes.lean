import CrystalModel.Proofs.Structure.Build
import CrystalModel.Proofs.Structure.Views

/-! # Classes of models

Every view and every cluster brings one class of consecutive models with it, so classes are closed
by construction and the check at the end of a build never fails. -/
namespace CrystalModel

/-- The model is an image of the interaction as seen from that end. -/
structure PairModel.Shows (home : Nat → Option Nat) (m : PairModel)
    (x : PairInteraction × PairView) : Prop where
  interaction : m.interaction = x.1.index
  inverted : m.inverted = x.2.inverted
  environment : home x.2.centerSite = some m.environment

/-- The model is an image of the cluster. -/
structure GroupModel.Shows (home : Nat → Option Nat) (m : GroupModel) (i : GroupInteraction) :
    Prop where
  interaction : m.interaction = i.index
  environment : home i.centerSite = some m.environment

namespace StructureDraft

open CrystalStructure

/-- Every class lists consecutive models, which carry its number and its members. -/
def Classed (classes : List Nat) (models : List (Nat × List Nat)) : Prop :=
  ∀ k first, classes[k]? = some first → ∃ count, 0 < count ∧
    ∀ id ∈ List.range' first count, models[id]? = some (k, List.range' first count)

theorem Classed.check {classes : List Nat} {models : List (Nat × List Nat)}
    (h : Classed classes models) : checkClasses classes models = .ok () := by
  refine forM_ok_iff.mpr ?_
  rintro ⟨first, k⟩ hk
  obtain ⟨count, pos, listed⟩ := h k first (List.mem_zipIdx_iff_getElem?.mp hk)
  have leads : first ∈ List.range' first count := List.mem_range'_1.mpr (by omega)
  simp only [listed first leads, List.contains_iff_mem.mpr leads]
  rw [if_neg (by simp)]
  refine forM_ok_iff.mpr fun member hmember => ?_
  simp [listed member hmember]

section Appended

variable {α γ : Type} {id : α → Nat} {members : α → List Nat} {led : α → γ → Prop}
  {classes : List Nat} {models new : List α} {done : List γ} {x : γ}

def place? (id : α → Nat) (k : Nat) : α × Nat → Option Nat
  | (m, place) => if id m = k then some place else none

theorem place?_eq_some (id : α → Nat) (k : Nat) (m : α) (place n : Nat) :
    place? id k (m, place) = some n ↔ id m = k ∧ place = n := by
  by_cases carries : id m = k <;> simp [place?, carries]

def placesOf (id : α → Nat) (models : List α) (k : Nat) : List Nat :=
  models.zipIdx.filterMap (place? id k)

theorem mem_placesOf {id : α → Nat} {models : List α} {k n : Nat} :
    n ∈ placesOf id models k ↔ ∃ m, models[n]? = some m ∧ id m = k :=
  mem_places (place?_eq_some id k)

theorem placesOf_nodup (id : α → Nat) (models : List α) (k : Nat) : (placesOf id models k).Nodup :=
  places_nodup (place?_eq_some id k)

/-- Closed classes, one for each element of a list, that are led by models of their elements. Every
model lies in the class of its element and lists the models of its number. -/
structure ClassPerElement (id : α → Nat) (members : α → List Nat) (led : α → γ → Prop)
    (classes : List Nat) (models : List α) (done : List γ) : Prop where
  closed : Classed classes (models.map fun m => (id m, members m))
  leaders : List.Forall₂ (fun first x => ∃ m, models[first]? = some m ∧ led m x) classes done
  owner : ∀ m ∈ models, ∃ x, done[id m]? = some x ∧ led m x
  siblings : ∀ m ∈ models, members m = placesOf id models (id m)

theorem ClassPerElement.nil : ClassPerElement id members led [] [] [] :=
  ⟨fun _ _ h => by simp at h, .nil, by simp, by simp⟩

theorem ClassPerElement.id_lt (h : ClassPerElement id members led classes models done) :
    ∀ m ∈ models, id m < classes.length := by
  intro m hm
  obtain ⟨x, hx, _⟩ := h.owner m hm
  rw [h.leaders.length_eq]
  exact (List.getElem?_eq_some_iff.mp hx).1

theorem ClassPerElement.leader (h : ClassPerElement id members led classes models done)
    {k first : Nat} (hk : classes[k]? = some first) : ∃ m, models[first]? = some m ∧ id m = k := by
  obtain ⟨count, pos, listed⟩ := h.closed k first hk
  have leads := listed first (List.mem_range'_1.mpr (by omega))
  rw [List.getElem?_map] at leads
  obtain ⟨m, hm, same⟩ := Option.map_eq_some_iff.mp leads
  exact ⟨m, hm, congrArg Prod.fst same⟩

theorem ClassPerElement.listed (h : ClassPerElement id members led classes models done) :
    (classes.filterMap fun first => models[first]?.map members) =
      (List.range classes.length).map (placesOf id models) := by
  refine filterMap_eq_map_range fun k first hk => ?_
  obtain ⟨m, hm, number⟩ := h.leader hk
  rw [hm, Option.map_some, h.siblings m (List.mem_of_getElem? hm), number]

theorem ClassPerElement.placesOf_append (h : ClassPerElement id members led classes models done)
    (made : ∀ m ∈ new, id m = classes.length) (k : Nat) :
    placesOf id (models ++ new) k = if k = classes.length
      then List.range' models.length new.length else placesOf id models k := by
  rw [placesOf, List.zipIdx_append, List.filterMap_append, Nat.zero_add]
  have keep := place?_eq_some id k
  split
  · next last =>
    subst last
    rw [places_none keep fun m hm => Nat.ne_of_lt (h.id_lt m hm), places_all keep made,
      List.nil_append]
  · next earlier =>
    have others (m : α) (hm : m ∈ new) : id m ≠ k := fun same => earlier (same ▸ made m hm)
    rw [places_none keep others, List.append_nil, placesOf]

theorem ClassPerElement.append (h : ClassPerElement id members led classes models done)
    (nonempty : new ≠ []) (made : ∀ m ∈ new, id m = classes.length ∧
      members m = List.range' models.length new.length ∧ led m x) :
    ClassPerElement id members led (classes ++ [models.length]) (models ++ new) (done ++ [x]) := by
  have pos := List.length_pos_of_ne_nil nonempty
  have places := h.placesOf_append fun m hm => (made m hm).1
  refine ⟨?_, ?_, fun m hm => ?_, fun m hm => ?_⟩
  · intro k first hk
    rcases getElem?_append_cases hk with earlier | ⟨j, last, rfl⟩
    · obtain ⟨count, pos, listed⟩ := h.closed k first earlier
      refine ⟨count, pos, fun member hmember => ?_⟩
      rw [List.map_append]
      exact getElem?_append_of_some (listed member hmember)
    · obtain ⟨rfl, rfl⟩ : j = 0 ∧ models.length = first := by
        cases j <;> simp_all
      refine ⟨new.length, pos, fun member hmember => ?_⟩
      obtain ⟨_, m, hm, found⟩ := getElem?_appended hmember
      obtain ⟨number, siblings, _⟩ := made m (List.mem_of_getElem? hm)
      rw [List.getElem?_map, found, Option.map_some, number, siblings]
      rfl
  · refine List.rel_append (h.leaders.imp ?_) (.cons ?_ .nil)
    · rintro first x ⟨m, hm, lead⟩
      exact ⟨m, getElem?_append_of_some hm, lead⟩
    · have head : (models ++ new)[models.length]? = some new[0] := by
        rw [List.getElem?_append_right (Nat.le_refl _), Nat.sub_self, List.getElem?_eq_getElem pos]
      exact ⟨_, head, (made _ (List.getElem_mem pos)).2.2⟩
  · rcases List.mem_append.mp hm with hm | hm
    · obtain ⟨y, hy, lead⟩ := h.owner m hm
      exact ⟨y, getElem?_append_of_some hy, lead⟩
    · obtain ⟨number, _, lead⟩ := made m hm
      refine ⟨x, ?_, lead⟩
      rw [number, h.leaders.length_eq, List.getElem?_append_right (Nat.le_refl _), Nat.sub_self]
      rfl
  · rcases List.mem_append.mp hm with hm | hm
    · have below := h.id_lt m hm
      rw [places, if_neg (Nat.ne_of_lt below), h.siblings m hm]
    · obtain ⟨number, siblings, _⟩ := made m hm
      rw [places, if_pos number, siblings]

end Appended

variable {d d' : StructureDraft}

abbrev ViewClasses (home : Nat → Option Nat) (d : StructureDraft)
    (done : List (PairInteraction × PairView)) : Prop :=
  ClassPerElement PairModel.modelId PairModel.equivalents (PairModel.Shows home) d.pairClasses
    d.pairModels done

abbrev GroupClasses (home : Nat → Option Nat) (d : StructureDraft) (done : List GroupInteraction) :
    Prop :=
  ClassPerElement GroupModel.modelId GroupModel.equivalents (GroupModel.Shows home) d.groupClasses
    d.groupModels done

section Pairs

variable [Trigonometry] {i : PairInteraction} {v : PairView}
  {done : List (PairInteraction × PairView)}

theorem ViewClasses.addPairView (classes : ViewClasses (environmentOf d.environments) d done)
    (h : addPairView i d v = .ok d') :
    ViewClasses (environmentOf d.environments) d' (done ++ [(i, v)]) := by
  rcases addPairView_cases i (d := d) (v := v) rfl with ⟨_, error, failed⟩ |
    ⟨e, origin, nonempty, center, _, added⟩
  · rw [failed] at h
    cases h
  · rw [added] at h
    obtain ⟨models, hmodels, h⟩ := bind_ok_iff.mp h
    obtain rfl := pure_ok_iff.mp h
    have made := mapM_ok_iff.mp hmodels
    refine ClassPerElement.append classes ?_ fun m hm => ?_
    · intro empty
      rw [empty] at made
      exact nonempty (List.forall₂_nil_right_iff.mp made)
    · obtain ⟨image, _, hm⟩ := aligned_mem_right made hm
      rw [(pairModel_ok_iff.mp hm).2.2, made.length_eq]
      exact ⟨rfl, rfl, rfl, rfl, center⟩

theorem viewClasses_of_foldlM {r : ReferenceData} {interactions : List PairInteraction}
    {start : StructureDraft} (h : interactions.foldlM (addPair r) start = .ok d)
    (models : start.pairModels = []) (classes : start.pairClasses = []) :
    ViewClasses (environmentOf start.environments) d (viewsOf interactions) := by
  have laid := foldlM_ok_induction (motive := fun done d =>
    SameFrame start d ∧ ViewClasses (environmentOf start.environments) d done)
    (foldlM_addPair_ok_iff.mp h).2 ⟨.refl start, ?_⟩ ?_
  · exact laid.2
  · rw [ViewClasses, models, classes]
    exact .nil
  · rintro done x _ t u _ ⟨frame, before⟩ step
    rw [← environmentOf_congr frame.bare] at before ⊢
    exact ⟨frame.trans (.addPairView step), before.addPairView step⟩

end Pairs

section Groups

variable {i : GroupInteraction} {done : List GroupInteraction}

theorem GroupClasses.addGroup (classes : GroupClasses (environmentOf d.environments) d done)
    (h : d.addGroup i = .ok d') :
    GroupClasses (environmentOf d.environments) d' (done ++ [i]) := by
  obtain ⟨e, env, models, center, _, nonempty, made, rfl⟩ := addGroup_ok h
  refine ClassPerElement.append classes nonempty fun m hm => ?_
  have new := made m hm
  exact ⟨new.modelId, new.equivalents, new.interaction, new.environment ▸ center⟩

theorem addGroup_bare (h : d.addGroup i = .ok d') :
    d'.environments.map Environment.bare = d.environments.map Environment.bare := by
  obtain ⟨_, _, _, _, _, _, _, rfl⟩ := addGroup_ok h
  refine map_modify_eq ?_
  intro env
  rfl

theorem groupClasses_of_foldlM {interactions : List GroupInteraction} {start : StructureDraft}
    (h : interactions.foldlM addGroup start = .ok d) (models : start.groupModels = [])
    (classes : start.groupClasses = []) :
    GroupClasses (environmentOf start.environments) d interactions := by
  have laid := foldlM_ok_induction (motive := fun done d =>
    d.environments.map Environment.bare = start.environments.map Environment.bare ∧
      GroupClasses (environmentOf start.environments) d done) h ⟨rfl, ?_⟩ ?_
  · exact laid.2
  · rw [GroupClasses, models, classes]
    exact .nil
  · rintro done i _ t u _ ⟨bare, before⟩ step
    rw [← environmentOf_congr bare] at before ⊢
    exact ⟨(addGroup_bare step).trans bare, before.addGroup step⟩

end Groups

end StructureDraft

namespace CrystalStructure

open StructureDraft

/-- The classes of a draft after all its interactions. -/
theorem classes_of_foldlM [Trigonometry] {s : Symmetry} {r : ReferenceData} {l : PositionList}
    {paired grouped : StructureDraft}
    (laid : (activePairs r).foldlM (addPair r) (draft s r.cell r l) = .ok paired)
    (grown : (activeGroups r).foldlM addGroup paired = .ok grouped) :
    ViewClasses (environmentOf grouped.environments) grouped (viewsOf (activePairs r)) ∧
      GroupClasses (environmentOf grouped.environments) grouped (activeGroups r) := by
  have pairsLaid := pairsLaid_of_foldlM laid draft_empty
  have groupsLaid := groupsLaid_of_foldlM grown pairsLaid.ungrouped
  have pairs := viewClasses_of_foldlM laid rfl rfl
  have clusters : paired.groupModels = [] ∧ paired.groupClasses = [] := by
    rw [pairsLaid.frame]
    exact ⟨rfl, rfl⟩
  have same : grouped.pairModels = paired.pairModels ∧
      grouped.pairClasses = paired.pairClasses := by
    rw [groupsLaid.frame]
    exact ⟨rfl, rfl⟩
  rw [ViewClasses, same.1, same.2, environmentOf_congr groupsLaid.bare]
  rw [← environmentOf_congr pairsLaid.bare] at pairs
  exact ⟨pairs, groupClasses_of_foldlM grown clusters.1 clusters.2⟩

end CrystalStructure

end CrystalModel
