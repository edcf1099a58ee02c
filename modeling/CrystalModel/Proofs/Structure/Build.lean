import CrystalModel.Proofs.Geometry.Encoder
import CrystalModel.Proofs.Structure.Group
import CrystalModel.Proofs.Structure.Position
import CrystalModel.Structure.Build

/-! # Finished structures

What a successful build leaves behind: sound positions, pair models that are exactly the images
of the views of the active interactions, coded groups, closed classes, and per position the
targets of all pair models of its environment. -/
namespace CrystalModel

namespace StructureDraft

theorem checkClasses_ok {classes : List Nat} {models : List (Nat × List Nat)}
    (h : checkClasses classes models = .ok ()) {k first : Nat} (hk : classes[k]? = some first) :
    ∃ members, models[first]? = some (k, members) ∧ first ∈ members ∧
      ∀ member ∈ members, models[member]? = some (k, members) := by
  have mem : (first, k) ∈ classes.zipIdx := List.mem_zipIdx_iff_getElem?.mpr hk
  have checked := forM_ok_iff.mp h (first, k) mem
  simp only at checked
  cases found : models[first]? with
  | none => simp [found] at checked
  | some model =>
    obtain ⟨index, members⟩ := model
    simp only [found] at checked
    split at checked
    · cases checked
    · next contained =>
      have member_ok : ∀ member ∈ members, models[member]? = some (k, members) := by
        intro member hm
        have each := forM_ok_iff.mp checked member hm
        cases other : models[member]? with
        | none => simp [other] at each
        | some model =>
          obtain ⟨index', members'⟩ := model
          simp only [other] at each
          split at each
          · cases each
          · split at each
            · cases each
            · next same others =>
              rw [Decidable.not_not.mp same, Decidable.not_not.mp others]
      have inside : first ∈ members := by simpa using contained
      refine ⟨members, ?_, inside, member_ok⟩
      rw [← found]
      exact member_ok first inside

variable {d : StructureDraft} {position : Nat}

theorem pairTarget_ok {op : Operation} {id : Nat} {target : PairTarget} {m : PairModel}
    (hm : d.pairModels[id]? = some m) (h : d.pairTarget position op id = .ok target) :
    target.pairModel = id ∧ target.modelId = m.modelId ∧
      d.encoder.encode (op.apply m.target) = some target.relative := by
  unfold pairTarget at h
  simp only [hm, Option.map_some, Option.getD_some] at h
  cases code : d.encoder.encode (op.apply m.target) with
  | none => simp [code] at h
  | some v =>
    rw [code] at h
    cases h
    exact ⟨rfl, rfl, rfl⟩

theorem cellPosition_ok {point : Point} {site e : Nat} {env : Environment} {c : CellPosition}
    (hsite : d.positionSites[position]? = some site)
    (he : CrystalStructure.environmentOf d.environments site = some e)
    (henv : d.environments[e]? = some env) (h : d.cellPosition position point = .ok c) :
    c.position = position ∧ c.site = site ∧ c.environment = e ∧
      d.symmetry.operationBetween env.dictionary.source point = some c.operation ∧
      List.Forall₂ (fun id target => d.pairTarget position c.operation id = .ok target)
        env.pairModels c.targets := by
  unfold cellPosition at h
  simp only [hsite, he, henv, Option.map_some, Option.getD_some] at h
  cases carry : d.symmetry.operationBetween env.dictionary.source point with
  | none => simp [carry] at h
  | some op =>
    simp only [carry] at h
    obtain ⟨targets, htargets, h⟩ := bind_ok_iff.mp h
    rw [← pure_ok_iff.mp h]
    exact ⟨rfl, rfl, rfl, rfl, mapM_ok_iff.mp htargets⟩

end StructureDraft

namespace CrystalStructure

open StructureDraft

abbrev activePairs (r : ReferenceData) : List PairInteraction :=
  r.pairInteractions.filter (·.isActive)

abbrev activeGroups (r : ReferenceData) : List GroupInteraction :=
  r.groupInteractions.filter (·.isActive)

def activeViews (r : ReferenceData) : List (PairInteraction × PairView) :=
  viewsOf (r.pairInteractions.filter (·.isActive))

/-- A target comes from a model of its number, carried to the position. -/
structure Targets (s : CrystalStructure) (op : Operation) (id : Nat) (target : PairTarget) :
    Prop where
  model : target.pairModel = id
  carried : ∃ m, s.pairModels[id]? = some m ∧ target.modelId = m.modelId ∧
    s.encoder.encode (op.apply m.target) = some target.relative

structure Placed (s : CrystalStructure) (p : Nat) (c : CellPosition) (v : Point)
    (env : Environment) : Prop where
  point : s.encoder.positions[p]? = some v
  position : c.position = p
  site : s.positionSites[p]? = some c.site
  environment : environmentOf s.environments c.site = some c.environment
  found : s.environments[c.environment]? = some env
  operation : s.symmetry.operationBetween env.dictionary.source v = some c.operation
  targets : List.Forall₂ (s.Targets c.operation) env.pairModels c.targets

/-- What holds of every structure that was built from reference data. -/
structure Sound (r : ReferenceData) (s : CrystalStructure) : Prop where
  places : r.checkPlaces = .ok ()
  tolerance : s.encoder.tolerance = s.symmetry.tolerance
  width : ∃ w : Float, s.symmetry.tolerance = .ofWidth w
  positions : PositionList.Sound s.symmetry r ⟨s.encoder.positions, s.positionSites⟩
  environments : s.environments.map Environment.bare =
    (r.sites.filter (·.isActive)).map fun site =>
      ⟨site.index, s.symmetry.dictionary site.vector, [], []⟩
  known : ∀ (e : Nat) (env : Environment) (id : Nat), s.environments[e]? = some env →
    id ∈ env.pairModels → ∃ m, s.pairModels[id]? = some m ∧ m.modelId < s.pairClasses.length ∧
      ∃ x ∈ activeViews r, m.interaction = x.1.index ∧
        environmentOf s.environments x.2.centerSite = some e ∧
        m.target ∈ viewImages s.symmetry s.environments x.2
  listed : ∀ x ∈ activeViews r, ∀ image ∈ viewImages s.symmetry s.environments x.2,
    ∃ e env id m, environmentOf s.environments x.2.centerSite = some e ∧
      s.environments[e]? = some env ∧ id ∈ env.pairModels ∧ s.pairModels[id]? = some m ∧
      m.interaction = x.1.index ∧ m.target = image
  groups : ∀ (e : Nat) (env : Environment) (id : Nat), s.environments[e]? = some env →
    id ∈ env.groupModels → ∃ m, s.groupModels[id]? = some m ∧
      m.modelId < s.groupClasses.length ∧ Coded env.pairModels.length m.coding
  pairClasses : checkClasses s.pairClasses (s.pairModels.map fun m => (m.modelId, m.equivalents))
    = .ok ()
  groupClasses : checkClasses s.groupClasses
    (s.groupModels.map fun m => (m.modelId, m.equivalents)) = .ok ()
  cells : List.Forall₂ (fun (x : Point × Nat) c => ∃ env, s.Placed x.2 c x.1 env)
    s.encoder.positions.zipIdx s.cellPositions

section Sound

variable {r : ReferenceData} {s : CrystalStructure}

theorem Sound.fit (sound : Sound r s) : Encoder.Fit s.encoder := by
  refine ⟨?_, ?_⟩
  · rw [sound.tolerance]
    exact sound.positions.apart
  · rw [sound.tolerance]
    exact sound.positions.trimmed

theorem Placed.origin {p : Nat} {c : CellPosition} {v : Point} {env : Environment}
    (placed : s.Placed p c v env) :
    originOf s.environments c.site = some env.dictionary.source := by
  rw [originOf, placed.environment, Option.bind_some, placed.found, Option.map_some]

theorem Sound.placed (sound : Sound r s) {p : Nat} {c : CellPosition}
    (hc : s.cellPositions[p]? = some c) : ∃ v env, s.Placed p c v env := by
  obtain ⟨⟨v, q⟩, hx, env, placed⟩ := aligned_right sound.cells hc
  rw [List.getElem?_zipIdx] at hx
  obtain ⟨_, _, same⟩ := Option.map_eq_some_iff.mp hx
  cases same
  simp only [Nat.zero_add] at placed
  exact ⟨v, env, placed⟩

theorem Sound.cell (sound : Sound r s) {p : Nat} {v : Point}
    (hv : s.encoder.positions[p]? = some v) : ∃ c env, s.cellPositions[p]? = some c ∧
      s.Placed p c v env := by
  have hx : s.encoder.positions.zipIdx[p]? = some (v, p) := by
    rw [List.getElem?_zipIdx, hv, Option.map_some, Nat.zero_add]
  obtain ⟨c, hc, env, placed⟩ := aligned_left sound.cells hx
  exact ⟨c, env, hc, placed⟩

end Sound

theorem draft_empty {symmetry : Symmetry} {cell : Cell} {r : ReferenceData}
    {positions : PositionList} : ∀ env ∈ (draft symmetry cell r positions).environments,
      env.pairModels = [] ∧ env.groupModels = [] := by
  intro env henv
  obtain ⟨site, _, rfl⟩ := List.mem_map.mp henv
  exact ⟨rfl, rfl⟩

variable [Trigonometry] {r : ReferenceData} {config : Config} {s : CrystalStructure}

theorem build_ok (h : build r config = .ok s) :
    ∃ positions paired grouped cellPositions, r.checkPlaces = .ok () ∧
      r.symmetry (.ofWidth config.geometryTolerance) = .ok s.symmetry ∧
      PositionList.ofSites s.symmetry r = .ok positions ∧
      (r.pairInteractions.filter (·.isActive)).foldlM (addPair r)
        (draft s.symmetry r.cell r positions) = .ok paired ∧
      (r.groupInteractions.filter (·.isActive)).foldlM addGroup paired = .ok grouped ∧
      List.Forall₂ (fun (x : Point × Nat) c => grouped.cellPosition x.2 x.1 = .ok c)
        grouped.encoder.positions.zipIdx cellPositions ∧
      checkClasses grouped.pairClasses
        (grouped.pairModels.map fun m => (m.modelId, m.equivalents)) = .ok () ∧
      checkClasses grouped.groupClasses
        (grouped.groupModels.map fun m => (m.modelId, m.equivalents)) = .ok () ∧
      s = { grouped with cellPositions } := by
  obtain ⟨⟨⟩, places, h⟩ := bind_ok_iff.mp h
  obtain ⟨symmetry, hsymmetry, h⟩ := bind_ok_iff.mp h
  split at h
  · cases h
  obtain ⟨positions, hpositions, h⟩ := bind_ok_iff.mp h
  obtain ⟨paired, hpaired, h⟩ := bind_ok_iff.mp h
  obtain ⟨grouped, hgrouped, h⟩ := bind_ok_iff.mp h
  obtain ⟨cellPositions, hcells, h⟩ := bind_ok_iff.mp h
  obtain ⟨⟨⟩, hpairs, h⟩ := bind_ok_iff.mp h
  obtain ⟨⟨⟩, hgroups, h⟩ := bind_ok_iff.mp h
  have final := pure_ok_iff.mp h
  have laid := pairsLaid_of_foldlM hpaired draft_empty
  have same : s.symmetry = symmetry := calc
    s.symmetry = grouped.symmetry := by rw [← final]
    _ = paired.symmetry :=
      by rw [(groupsLaid_of_foldlM hgrouped laid.ungrouped).frame]
    _ = symmetry := by rw [laid.frame]; rfl
  rw [same]
  exact ⟨positions, paired, grouped, cellPositions, places, mapError_ok_iff.mp hsymmetry,
    hpositions, hpaired, hgrouped, mapM_ok_iff.mp hcells, hpairs, hgroups, final.symm⟩

theorem sound_of_build (h : build r config = .ok s) : Sound r s := by
  obtain ⟨positions, paired, grouped, cellPositions, places, hsymmetry, hpositions, hpaired,
    hgrouped, hcells, hpairs, hgroups, rfl⟩ := build_ok h
  have laid := pairsLaid_of_foldlM hpaired draft_empty
  have groups := groupsLaid_of_foldlM hgrouped laid.ungrouped
  have symmetry : paired.symmetry = grouped.symmetry := by rw [groups.frame]
  have encoder : grouped.encoder = ⟨positions.points, r.cell, grouped.symmetry.tolerance⟩ := by
    rw [← symmetry, groups.frame, laid.frame]
    rfl
  have sites : grouped.positionSites = positions.sites := by
    rw [groups.frame, laid.frame]
    rfl
  have bare := groups.bare.trans laid.bare
  have sound := PositionList.sound_of_ofSites hpositions
  obtain ⟨known, listed⟩ := laid.grouped groups
  refine ⟨places, by rw [encoder], ?_, by rw [encoder, sites]; exact sound, ?_, known, listed,
    groups.known, hpairs, hgroups, ?_⟩
  · obtain ⟨group, _, hgroup⟩ := map_ok_iff.mp hsymmetry
    exact ⟨_, by rw [← hgroup]⟩
  · rw [bare]
    simp [draft, Environment.bare]
  · refine aligned_imp hcells ?_
    rintro ⟨v, p⟩ hx c _ hc
    have hv := List.mem_zipIdx_iff_getElem?.mp hx
    rw [encoder] at hv
    have hp : p < positions.sites.length := sound.aligned ▸ (List.getElem?_eq_some_iff.mp hv).1
    have hsite : grouped.positionSites[p]? = some positions.sites[p] := by
      rw [sites]
      exact List.getElem?_eq_getElem hp
    obtain ⟨site, hactive, index⟩ := sound.active _ (List.getElem_mem hp)
    obtain ⟨e, he⟩ : ∃ e, environmentOf grouped.environments positions.sites[p] = some e := by
      rw [environmentOf_congr bare, ← index]
      exact environmentOf_isSome (List.mem_map_of_mem hactive)
    obtain ⟨env, henv, _⟩ := environmentOf_site he
    obtain ⟨position, same, environment, operation, targets⟩ := cellPosition_ok hsite he henv hc
    rw [← encoder] at hv
    rw [← same] at hsite he
    rw [← environment] at he henv
    refine ⟨env, hv, position, hsite, he, henv, operation, aligned_imp targets ?_⟩
    intro id hid target _ htarget
    obtain ⟨m, hm, _⟩ := known _ env id henv hid
    obtain ⟨model, modelId, code⟩ := pairTarget_ok hm htarget
    exact ⟨model, m, hm, modelId, code⟩

end CrystalStructure

end CrystalModel
