import CrystalModel.Proofs.Fallible
import CrystalModel.Structure.Pair

/-! # Pair models and the views they come from

Building pair models only ever appends. So a finished draft holds, for every view of an active
interaction, one model per image, and every model belongs to one such view. -/
namespace CrystalModel

def Environment.bare (e : Environment) : Environment :=
    { e with pairModels := [], groupModels := [] }

namespace CrystalStructure

/-- The place that the models of a site are centered on. -/
def originOf (environments : List Environment) (site : Nat) : Option Point :=
  (environmentOf environments site).bind fun e => environments[e]?.map (·.dictionary.source)

def viewImages (s : Symmetry) (environments : List Environment) (v : PairView) : List Point :=
  match originOf environments v.centerSite with
  | none => []
  | some origin => match s.operationBetween v.center origin with
    | none => []
    | some op => StructureDraft.partnerImages s origin (op.apply v.partner)

variable {environments others : List Environment} {site e : Nat}

theorem environmentOf_site (h : environmentOf environments site = some e) :
    ∃ env, environments[e]? = some env ∧ env.site = site := by
  obtain ⟨he, found, _⟩ := List.findIdx?_eq_some_iff_getElem.mp h
  exact ⟨environments[e], List.getElem?_eq_getElem he, beq_iff_eq.mp found⟩

theorem environmentOf_inj {other : Nat} (h : environmentOf environments site = some e)
    (h' : environmentOf environments other = some e) : site = other := by
  obtain ⟨env, henv, rfl⟩ := environmentOf_site h
  obtain ⟨env', henv', rfl⟩ := environmentOf_site h'
  rw [henv] at henv'
  cases henv'
  rfl

theorem environmentOf_isSome {env : Environment} (h : env ∈ environments) :
    ∃ e, environmentOf environments env.site = some e := by
  refine Option.isSome_iff_exists.mp ?_
  rw [environmentOf, List.findIdx?_isSome]
  exact List.any_eq_true.mpr ⟨env, h, by simp⟩

theorem environmentOf_congr (h : environments.map Environment.bare = others.map Environment.bare) :
    environmentOf environments = environmentOf others := by
  have through : ∀ es : List Environment,
      environmentOf es = environmentOf (es.map Environment.bare) := by
    intro es
    funext site
    rw [environmentOf, environmentOf, List.findIdx?_map]
    rfl
  rw [through environments, through others, h]

theorem originOf_congr (h : environments.map Environment.bare = others.map Environment.bare) :
    originOf environments = originOf others := by
  have source : ∀ e : Nat, environments[e]?.map (·.dictionary.source) =
      others[e]?.map (·.dictionary.source) := by
    intro e
    have place := congrArg (fun es => es[e]?.map (·.dictionary.source)) h
    simp only [List.getElem?_map, Option.map_map] at place
    exact place
  funext site
  rw [originOf, originOf, environmentOf_congr h]
  simp only [source]

theorem viewImages_congr (s : Symmetry)
    (h : environments.map Environment.bare = others.map Environment.bare) :
    viewImages s environments = viewImages s others := by
  funext v
  rw [viewImages, viewImages, originOf_congr h]

end CrystalStructure

namespace StructureDraft

open CrystalStructure

variable [Trigonometry] {i : PairInteraction} {d d' : StructureDraft} {view : PairView}

theorem pairModel_ok {e : Nat} {origin image : Point} {members : List Nat} {m : PairModel}
    (h : d.pairModel i view e origin members image = .ok m) :
    m.modelId = d.pairClasses.length ∧ m.interaction = i.index ∧ m.target = image := by
  unfold pairModel at h
  simp only at h
  split at h
  · cases h
  · split at h
    · cases h
    · cases h
      exact ⟨rfl, rfl, rfl⟩

theorem addPairView_ok (h : addPairView i d view = .ok d') :
    ∃ e models, environmentOf d.environments view.centerSite = some e ∧
      List.Forall₂ (fun image m => m.modelId = d.pairClasses.length ∧ m.interaction = i.index ∧
        m.target = image) (viewImages d.symmetry d.environments view) models ∧
      d' = { d with
        environments := d.environments.modify e fun env =>
          { env with pairModels := env.pairModels ++
              List.range' d.pairModels.length models.length }
        pairModels := d.pairModels ++ models
        pairClasses := d.pairClasses ++ [d.pairModels.length] } := by
  unfold addPairView at h
  cases he : environmentOf d.environments view.centerSite with
  | none => simp [he] at h
  | some e =>
    obtain ⟨env, henv, _⟩ := environmentOf_site he
    have ho : originOf d.environments view.centerSite = some env.dictionary.source := by
      simp [originOf, he, henv]
    simp only [he, henv, Option.map_some, Option.getD_some] at h
    cases hop : d.symmetry.operationBetween view.center env.dictionary.source with
    | none => simp [hop] at h
    | some op =>
      have images : viewImages d.symmetry d.environments view =
          partnerImages d.symmetry env.dictionary.source (op.apply view.partner) := by
        simp [viewImages, ho, hop]
      simp only [hop, ← images] at h
      split at h
      · cases h
      · obtain ⟨models, hm, h⟩ := bind_ok_iff.mp h
        have made := mapM_ok_iff.mp hm
        refine ⟨e, models, rfl, made.imp fun image m hm => pairModel_ok hm, ?_⟩
        rw [← pure_ok_iff.mp h, made.length_eq]

/-- What holds while pair models are laid down: nothing but the pair models grows, every listed
model is an image of a view that is done, and every image of such a view is listed. -/
structure PairsLaid (start : StructureDraft) (done : List (PairInteraction × PairView))
    (d : StructureDraft) : Prop where
  frame : d = { start with
    environments := d.environments, pairModels := d.pairModels, pairClasses := d.pairClasses }
  bare : d.environments.map Environment.bare = start.environments.map Environment.bare
  ungrouped : ∀ env ∈ d.environments, env.groupModels = []
  known : ∀ e env id, d.environments[e]? = some env → id ∈ env.pairModels →
    ∃ m, d.pairModels[id]? = some m ∧ m.modelId < d.pairClasses.length ∧
      ∃ x ∈ done, m.interaction = x.1.index ∧
        environmentOf start.environments x.2.centerSite = some e ∧
        m.target ∈ viewImages start.symmetry start.environments x.2
  listed : ∀ x ∈ done, ∀ image ∈ viewImages start.symmetry start.environments x.2,
    ∃ e env id m, environmentOf start.environments x.2.centerSite = some e ∧
      d.environments[e]? = some env ∧ id ∈ env.pairModels ∧ d.pairModels[id]? = some m ∧
      m.interaction = x.1.index ∧ m.target = image

theorem PairsLaid.addPairView {start : StructureDraft}
    {done : List (PairInteraction × PairView)} (laid : PairsLaid start done d)
    (h : addPairView i d view = .ok d') : PairsLaid start (done ++ [(i, view)]) d' := by
  obtain ⟨k, models, hk, made, rfl⟩ := addPairView_ok h
  have symmetry : d.symmetry = start.symmetry := by rw [laid.frame]
  rw [symmetry, viewImages_congr _ laid.bare] at made
  rw [environmentOf_congr laid.bare] at hk
  refine ⟨by rw [laid.frame], ?_, ?_, ?_, ?_⟩
  · refine (map_modify_eq ?_).trans laid.bare
    intro env
    rfl
  · intro env henv
    obtain ⟨e, he⟩ := List.mem_iff_getElem?.mp henv
    obtain ⟨old, hold, rfl⟩ := getElem?_modified he
    have bare := laid.ungrouped old (List.mem_of_getElem? hold)
    split <;> exact bare
  · intro e env id henv hid
    obtain ⟨old, hold, rfl⟩ := getElem?_modified henv
    simp only [List.length_append, List.length_singleton]
    by_cases earlier : id ∈ old.pairModels
    · obtain ⟨m, hm, hmodel, x, hx, hxm⟩ := laid.known e old id hold earlier
      exact ⟨m, getElem?_append_of_some hm, by omega, x, List.mem_append_left _ hx, hxm⟩
    by_cases hke : k = e
    · subst hke
      rw [if_pos rfl] at hid
      obtain ⟨_, m, hm, found⟩ := getElem?_appended ((List.mem_append.mp hid).resolve_left earlier)
      obtain ⟨image, himage, hmodel, hinteraction, htarget⟩ := aligned_right made hm
      refine ⟨m, found, by omega, (i, view), by simp, hinteraction, hk, ?_⟩
      rw [htarget]
      exact List.mem_of_getElem? himage
    · rw [if_neg hke] at hid
      exact absurd hid earlier
  · intro x hx image himage
    rcases List.mem_append.mp hx with hx | hx
    · obtain ⟨e, env, id, m, he, henv, hid, hm, hxm⟩ := laid.listed x hx image himage
      refine ⟨e, _, id, m, he, by rw [List.getElem?_modify, henv]; rfl, ?_,
        getElem?_append_of_some hm, hxm⟩
      by_cases hke : k = e <;> simp [hke, hid]
    · rw [List.mem_singleton.mp hx] at himage ⊢
      obtain ⟨place, hplace⟩ := List.mem_iff_getElem?.mp himage
      obtain ⟨m, hm, _, hinteraction, htarget⟩ := aligned_left made hplace
      have hlt := (List.getElem?_eq_some_iff.mp hm).1
      obtain ⟨env, henv, _⟩ := environmentOf_site (environmentOf_congr laid.bare ▸ hk)
      refine ⟨k, _, d.pairModels.length + place, m, hk, by rw [List.getElem?_modify, henv]; rfl,
        ?_, ?_, hinteraction, htarget⟩
      · simp only [if_true, List.mem_append, List.mem_range'_1]
        omega
      · rw [List.getElem?_append_right (by omega), Nat.add_sub_cancel_left, hm]

def viewsOf (interactions : List PairInteraction) : List (PairInteraction × PairView) :=
  interactions.flatMap fun i => i.views.map (i, ·)

theorem pairsLaid_of_foldlM {r : ReferenceData} {interactions : List PairInteraction}
    {start : StructureDraft} (h : interactions.foldlM (addPair r) start = .ok d)
    (empty : ∀ env ∈ start.environments, env.pairModels = [] ∧ env.groupModels = []) :
    PairsLaid start (viewsOf interactions) d := by
  refine foldlM_ok_induction (motive := fun done d => PairsLaid start (viewsOf done) d) h ?_ ?_
  · refine ⟨rfl, rfl, fun env henv => (empty env henv).2, ?_, by simp [viewsOf]⟩
    intro e env id henv hid
    simp [(empty env (List.mem_of_getElem? henv)).1] at hid
  · intro done i rest t u _ ih step
    obtain ⟨_, _, step⟩ := bind_ok_iff.mp step
    have views : PairsLaid start (viewsOf done ++ i.views.map (i, ·)) u := by
      refine foldlM_ok_induction (motive := fun seen d =>
        PairsLaid start (viewsOf done ++ seen.map (i, ·)) d) step (by simpa using ih) ?_
      intro seen view _ _ _ _ ih step
      simpa using ih.addPairView step
    simpa [viewsOf] using views

end StructureDraft

end CrystalModel
