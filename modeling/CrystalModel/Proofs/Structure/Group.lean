import CrystalModel.Proofs.Structure.Pair
import CrystalModel.Proofs.Symmetry.Projection
import CrystalModel.Structure.Group

/-! # Group models and their codings

Building group models leaves all pair models as they are, so the places that a coding was made
of stay places among the pair models of its environment. -/
namespace CrystalModel

def Environment.ungrouped (e : Environment) : Environment := { e with groupModels := [] }

namespace StructureDraft

open CrystalStructure

def Coded (pairs : Nat) (coding : Vector Int32 8) : Prop :=
  ∃ places, coding = paddedCoding places ∧ places ≠ [] ∧ places.length ≤ 8 ∧
    ∀ place ∈ places, place < pairs

variable {i : GroupInteraction} {d d' : StructureDraft}

theorem partnerCoding_ok {e : Nat} {env : Environment} {partners : List Point}
    {places : List Nat} (he : d.environments[e]? = some env)
    (h : d.partnerCoding i e partners = .ok places) :
    places.length = partners.length ∧ ∀ place ∈ places, place < env.pairModels.length := by
  have coded := mapM_ok_iff.mp h
  refine ⟨coded.length_eq.symm, fun place hp => ?_⟩
  obtain ⟨partner, _, found⟩ := aligned_mem_right coded hp
  simp only [he, Option.map_some, Option.getD_some] at found
  split at found
  · next place' hplace =>
    cases found
    have := (List.findIdx?_eq_some_iff_getElem.mp hplace).1
    simpa using this
  · cases found

/-- A model of an interaction around the source of its environment, in the class that comes next. -/
structure NewModel (d : StructureDraft) (i : GroupInteraction) (e : Nat) (env : Environment)
    (members : List Nat) (m : GroupModel) : Prop where
  modelId : m.modelId = d.groupClasses.length
  environment : m.environment = e
  interaction : m.interaction = i.index
  center : m.center = env.dictionary.source
  equivalents : m.equivalents = members
  coded : Coded env.pairModels.length m.coding

theorem groupModel_ok {e : Nat} {env : Environment} {members : List Nat} {sequence : List Point}
    {m : GroupModel} (he : d.environments[e]? = some env) (hlow : sequence ≠ [])
    (hhigh : sequence.length ≤ 8)
    (h : d.groupModel i e env.dictionary.source members sequence = .ok m) :
    d.NewModel i e env members m := by
  unfold groupModel at h
  split at h
  · cases h
  · obtain ⟨places, hplaces, h⟩ := bind_ok_iff.mp h
    rw [← pure_ok_iff.mp h]
    obtain ⟨hlength, hbound⟩ := partnerCoding_ok he hplaces
    refine ⟨rfl, rfl, rfl, rfl, rfl, places, rfl, ?_, by omega, hbound⟩
    intro empty
    rw [empty, List.length_nil] at hlength
    exact hlow (List.length_eq_zero_iff.mp hlength.symm)

theorem addGroup_ok (h : d.addGroup i = .ok d') :
    ∃ e env models, environmentOf d.environments i.centerSite = some e ∧
      d.environments[e]? = some env ∧ models ≠ [] ∧
      (∀ m ∈ models,
        d.NewModel i e env (List.range' d.groupModels.length models.length) m) ∧
      d' = { d with
        environments := d.environments.modify e fun env =>
          { env with groupModels := env.groupModels ++
              List.range' d.groupModels.length models.length }
        groupModels := d.groupModels ++ models
        groupClasses := d.groupClasses ++ [d.groupModels.length] } := by
  unfold addGroup at h
  cases he : environmentOf d.environments i.centerSite with
  | none => simp [he] at h
  | some e =>
    obtain ⟨env, henv, _⟩ := environmentOf_site he
    simp only [he, henv, Option.map_some, Option.getD_some] at h
    split at h
    · cases h
    · next size =>
      split at h
      · cases h
      · next nonempty =>
        obtain ⟨models, hm, h⟩ := bind_ok_iff.mp h
        have made := mapM_ok_iff.mp hm
        refine ⟨e, env, models, rfl, henv, ?_, ?_, by rw [← pure_ok_iff.mp h, made.length_eq]⟩
        · intro empty
          rw [empty] at made
          rw [List.forall₂_nil_right_iff.mp made] at nonempty
          exact nonempty rfl
        intro m hmem
        obtain ⟨sequence, hs, hm⟩ := aligned_mem_right made hmem
        have length := Symmetry.sequenceImages_length hs
        rw [List.isEmpty_iff_length_eq_zero] at size
        rw [made.length_eq] at hm
        refine groupModel_ok henv ?_ (by omega) hm
        intro empty
        rw [empty, List.length_nil] at length
        omega

/-- What holds while group models are laid down. -/
structure GroupsLaid (start d : StructureDraft) : Prop where
  frame : d = { start with
    environments := d.environments, groupModels := d.groupModels, groupClasses := d.groupClasses }
  ungrouped : d.environments.map Environment.ungrouped =
    start.environments.map Environment.ungrouped
  known : ∀ (e : Nat) (env : Environment) (id : Nat), d.environments[e]? = some env →
    id ∈ env.groupModels →
    ∃ m, d.groupModels[id]? = some m ∧ m.modelId < d.groupClasses.length ∧
      Coded env.pairModels.length m.coding

theorem GroupsLaid.pairs {start : StructureDraft} (laid : GroupsLaid start d) (e : Nat) :
    d.environments[e]?.map (·.pairModels) = start.environments[e]?.map (·.pairModels) := by
  have same := congrArg (fun es => es[e]?.map (·.pairModels)) laid.ungrouped
  simp only [List.getElem?_map, Option.map_map] at same
  exact same

theorem GroupsLaid.bare {start : StructureDraft} (laid : GroupsLaid start d) :
    d.environments.map Environment.bare = start.environments.map Environment.bare := by
  have same := congrArg (fun es => es.map Environment.bare) laid.ungrouped
  simp only [List.map_map] at same
  exact same

/-- Group models are laid over the pair models, which they leave as they are. -/
theorem PairsLaid.grouped {start paired d : StructureDraft}
    {done : List (PairInteraction × PairView)} (laid : PairsLaid start done paired)
    (groups : GroupsLaid paired d) :
    (∀ (e : Nat) (env : Environment) (id : Nat), d.environments[e]? = some env →
      id ∈ env.pairModels → ∃ m, d.pairModels[id]? = some m ∧ m.modelId < d.pairClasses.length ∧
        ∃ x ∈ done, m.interaction = x.1.index ∧
          environmentOf d.environments x.2.centerSite = some e ∧
          m.target ∈ viewImages d.symmetry d.environments x.2) ∧
    ∀ x ∈ done, ∀ image ∈ viewImages d.symmetry d.environments x.2,
      ∃ e env id m, environmentOf d.environments x.2.centerSite = some e ∧
        d.environments[e]? = some env ∧ id ∈ env.pairModels ∧ d.pairModels[id]? = some m ∧
        m.interaction = x.1.index ∧ m.target = image := by
  have symmetry : d.symmetry = start.symmetry := by rw [groups.frame, laid.frame]
  have models : d.pairModels = paired.pairModels := by rw [groups.frame]
  have classes : d.pairClasses = paired.pairClasses := by rw [groups.frame]
  have bare := groups.bare.trans laid.bare
  rw [symmetry, models, classes]
  refine ⟨fun e env id henv hid => ?_, fun x hx image himage => ?_⟩
  · have pairs := groups.pairs e
    rw [henv] at pairs
    obtain ⟨old, hold, hpairs⟩ := Option.map_eq_some_iff.mp pairs.symm
    obtain ⟨m, hm, hmodel, x, hx, hinteraction, he, htarget⟩ :=
      laid.known e old id hold (hpairs ▸ hid)
    rw [← environmentOf_congr bare] at he
    rw [← viewImages_congr _ bare] at htarget
    exact ⟨m, hm, hmodel, x, hx, hinteraction, he, htarget⟩
  · rw [viewImages_congr _ bare] at himage
    obtain ⟨e, old, id, m, he, hold, hid, hm, hinteraction, htarget⟩ :=
      laid.listed x hx image himage
    have pairs := groups.pairs e
    rw [hold] at pairs
    obtain ⟨env, henv, hpairs⟩ := Option.map_eq_some_iff.mp pairs
    rw [← environmentOf_congr bare] at he
    exact ⟨e, env, id, m, he, henv, hpairs ▸ hid, hm, hinteraction, htarget⟩

theorem GroupsLaid.addGroup {start : StructureDraft} (laid : GroupsLaid start d)
    (h : d.addGroup i = .ok d') : GroupsLaid start d' := by
  obtain ⟨k, center, models, _, hcenter, _, made, rfl⟩ := addGroup_ok h
  refine ⟨by rw [laid.frame], ?_, ?_⟩
  · refine (map_modify_eq ?_).trans laid.ungrouped
    intro env
    rfl
  · intro e env id henv hid
    obtain ⟨old, hold, rfl⟩ := getElem?_modified henv
    simp only [List.length_append, List.length_singleton]
    have earlier : id ∈ old.groupModels → ∃ m, (d.groupModels ++ models)[id]? = some m ∧
        m.modelId < d.groupClasses.length + 1 ∧ Coded old.pairModels.length m.coding := by
      intro hid
      obtain ⟨m, hm, hmodel, hcoded⟩ := laid.known e old id hold hid
      exact ⟨m, getElem?_append_of_some hm, by omega, hcoded⟩
    by_cases hke : k = e
    · subst hke
      rw [hcenter] at hold
      cases hold
      rw [if_pos rfl] at hid ⊢
      rcases List.mem_append.mp hid with hid | hid
      · exact earlier hid
      · obtain ⟨_, m, hm, found⟩ := getElem?_appended hid
        have new := made m (List.mem_of_getElem? hm)
        exact ⟨m, found, by rw [new.modelId]; omega, new.coded⟩
    · rw [if_neg hke] at hid ⊢
      exact earlier hid

theorem groupsLaid_of_foldlM {interactions : List GroupInteraction} {start : StructureDraft}
    (h : interactions.foldlM addGroup start = .ok d)
    (empty : ∀ env ∈ start.environments, env.groupModels = []) : GroupsLaid start d := by
  refine foldlM_ok_induction (motive := fun _ d => GroupsLaid start d) h ?_ ?_
  · refine ⟨rfl, rfl, ?_⟩
    intro e env id henv hid
    simp [empty env (List.mem_of_getElem? henv)] at hid
  · intro _ i _ _ _ _ ih step
    exact ih.addGroup step

end StructureDraft

end CrystalModel
