import CrystalModel.Proofs.Fallible
import CrystalModel.Transition.Link

/-! # Plans of one kind

The authored drafts keep their order and the appended inverse models follow them, so a plan
carries its own place as its model id. -/
namespace CrystalModel

theorem DraftTransition.ownLinks_some {d : DraftTransition} {links : List Nat}
    (h : d.ownLinks = .ok (some links)) :
    List.Forall₂ (fun (x : PathDraft) link =>
      (d.mappings.map (·.path)).idxOf? (turnedPath x.path) = some link) d.mappings links := by
  unfold DraftTransition.ownLinks at h
  simp only at h
  split at h
  · cases h
  · split at h
    · cases h
    · next full =>
      have linked := aligned_filterMap (Decidable.not_not.mp full)
      rw [Option.some.inj (Except.ok.inj h)] at linked
      rw [pathLinks, List.map_map, List.forall₂_map_left_iff] at linked
      exact linked

namespace TransitionPlan

def pending (own : List (Option (List Nat))) : List Nat :=
  own.zipIdx.filterMap fun (links, id) => if links.isNone then some id else none

@[simp] theorem mem_pending {own : List (Option (List Nat))} {k : Nat} :
    k ∈ pending own ↔ own[k]? = some none := by
  unfold pending
  rw [mem_places (p := (·.isNone)) fun _ _ _ => by simp]
  simp

theorem pending_nodup (own : List (Option (List Nat))) : (pending own).Nodup := by
  unfold pending
  exact places_nodup (p := (·.isNone)) fun _ _ _ => by simp

variable [Trigonometry] {e : Encoder} {drafts : List DraftTransition}

/-- What is known of the plan at place `k`: it numbers itself, links every mapping, and holds
an authored draft or the reversed form of one. -/
structure Planned (e : Encoder) (drafts : List DraftTransition) (k : Nat)
    (plan : TransitionPlan) : Prop where
  numbered : plan.modelId = k
  linked : plan.links.length = plan.draft.mappings.length
  origin : (k < drafts.length ∧ plan.isInverse = false ∧ drafts[k]? = some plan.draft) ∨
    (drafts.length ≤ k ∧ plan.isInverse = true ∧
      ∃ d ∈ drafts, d.reversed e = some plan.draft)

theorem planned_authored {count k : Nat} {waiting : List Nat} {d : DraftTransition}
    {own : Option (List Nat)} (hd : drafts[k]? = some d) (hown : d.ownLinks = .ok own) :
    Planned e drafts k (authored count waiting k d own) := by
  have hk := (List.getElem?_eq_some_iff.mp hd).1
  cases own with
  | none => exact ⟨rfl, List.length_range, Or.inl ⟨hk, rfl, hd⟩⟩
  | some links =>
    exact ⟨rfl, (DraftTransition.ownLinks_some hown).length_eq.symm, Or.inl ⟨hk, rfl, hd⟩⟩

theorem reversed_flatten {waiting : List Nat} {reversed : List (List DraftTransition)}
    (h : List.Forall₂ (fun forward ds => reversedDraft e drafts forward = .ok ds) waiting reversed)
    (within : ∀ forward ∈ waiting, forward < drafts.length) :
    List.Forall₂ (fun forward d => ∃ d₀, drafts[forward]? = some d₀ ∧ d₀.reversed e = some d)
      waiting reversed.flatten := by
  induction h with
  | nil => exact .nil
  | @cons forward ds waiting reversed hds _ ih =>
    have hf := within forward List.mem_cons_self
    have rest := ih fun x hx => within x (List.mem_cons_of_mem forward hx)
    rw [reversedDraft, List.getElem?_eq_getElem hf] at hds
    cases turned : drafts[forward].reversed e with
    | none => simp [turned] at hds
    | some d =>
      simp only [turned, Except.ok.injEq] at hds
      rw [← hds]
      exact .cons ⟨_, List.getElem?_eq_getElem hf, turned⟩ rest

/-- The plans of one kind: the authored drafts in their order, then the appended ones in the order
in which they wait. -/
structure Layout (e : Encoder) (drafts : List DraftTransition) (own : List (Option (List Nat)))
    (turned : List DraftTransition) (plans : List TransitionPlan) : Prop where
  owned : List.Forall₂ (fun (d : DraftTransition) links => d.ownLinks = .ok links) drafts own
  reversed : List.Forall₂ (fun forward d => ∃ d₀, drafts[forward]? = some d₀ ∧
    d₀.reversed e = some d) (pending own) turned
  plans : plans = (drafts.zip own).zipIdx.map (fun ((d, links), id) =>
      authored drafts.length (pending own) id d links) ++
    ((pending own).zip turned).zipIdx.map fun ((forward, d), place) =>
      appended drafts.length place forward d

theorem layout_of_ofDrafts {plans : List TransitionPlan} (h : ofDrafts e drafts = .ok plans) :
    ∃ own turned, Layout e drafts own turned plans := by
  obtain ⟨own, hown, h⟩ := bind_ok_iff.mp h
  obtain ⟨reversed, hreversed, h⟩ := bind_ok_iff.mp h
  have owned := mapM_ok_iff.mp hown
  refine ⟨own, reversed.flatten, owned, ?_, (pure_ok_iff.mp h).symm⟩
  refine reversed_flatten (mapM_ok_iff.mp hreversed) ?_
  intro forward waiting
  rw [owned.length_eq]
  exact (List.getElem?_eq_some_iff.mp (mem_pending.mp waiting)).1

namespace Layout

variable {own : List (Option (List Nat))} {turned : List DraftTransition}
  {plans : List TransitionPlan}

theorem front_length (h : Layout e drafts own turned plans) :
    ((drafts.zip own).zipIdx.map fun ((d, links), id) =>
      authored drafts.length (pending own) id d links).length = drafts.length := by
  simp [← h.owned.length_eq]

theorem length (h : Layout e drafts own turned plans) :
    plans.length = drafts.length + (pending own).length := by
  rw [h.plans, List.length_append, h.front_length]
  simp [← h.reversed.length_eq]

theorem authored (h : Layout e drafts own turned plans) {k : Nat} (hk : k < drafts.length) :
    ∃ d links, drafts[k]? = some d ∧ own[k]? = some links ∧ d.ownLinks = .ok links ∧
      plans[k]? = some (.authored drafts.length (pending own) k d links) := by
  have hd := List.getElem?_eq_getElem hk
  obtain ⟨links, hlinks, hown⟩ := aligned_left h.owned hd
  refine ⟨_, links, hd, hlinks, hown, ?_⟩
  rw [h.plans]
  apply getElem?_append_of_some
  rw [List.getElem?_map, List.getElem?_zipIdx, getElem?_zip_of hd hlinks]
  simp

theorem appended (h : Layout e drafts own turned plans) {place forward : Nat}
    (waiting : (pending own)[place]? = some forward) :
    ∃ d₀ d, drafts[forward]? = some d₀ ∧ d₀.reversed e = some d ∧
      plans[drafts.length + place]? = some (.appended drafts.length place forward d) := by
  obtain ⟨d, hd, d₀, hd₀, hturned⟩ := aligned_left h.reversed waiting
  refine ⟨d₀, d, hd₀, hturned, ?_⟩
  rw [h.plans, List.getElem?_append_right (by rw [h.front_length]; omega), h.front_length,
    Nat.add_sub_cancel_left, List.getElem?_map, List.getElem?_zipIdx, getElem?_zip_of waiting hd]
  simp

theorem waiting (h : Layout e drafts own turned plans) {k : Nat} (hk : k < plans.length)
    (behind : drafts.length ≤ k) : ∃ place forward, k = drafts.length + place ∧
      (pending own)[place]? = some forward := by
  have inside : k - drafts.length < (pending own).length := by
    have := h.length
    omega
  exact ⟨k - drafts.length, _, by omega, List.getElem?_eq_getElem inside⟩

end Layout

theorem planned_of_ofDrafts {plans : List TransitionPlan} (h : ofDrafts e drafts = .ok plans)
    {k : Nat} {plan : TransitionPlan} (hk : plans[k]? = some plan) : Planned e drafts k plan := by
  obtain ⟨own, turned, layout⟩ := layout_of_ofDrafts h
  by_cases among : k < drafts.length
  · obtain ⟨d, links, hd, _, hown, found⟩ := layout.authored among
    rw [hk, Option.some.injEq] at found
    rw [found]
    exact planned_authored hd hown
  · obtain ⟨place, forward, rfl, waiting⟩ :=
      layout.waiting (List.getElem?_eq_some_iff.mp hk).1 (by omega)
    obtain ⟨d₀, d, hd₀, hturned, found⟩ := layout.appended waiting
    rw [hk, Option.some.injEq] at found
    rw [found]
    exact ⟨rfl, List.length_range,
      Or.inr ⟨by omega, rfl, d₀, List.mem_of_getElem? hd₀, hturned⟩⟩

theorem length_le_of_ofDrafts {plans : List TransitionPlan} (h : ofDrafts e drafts = .ok plans) :
    drafts.length ≤ plans.length := by
  obtain ⟨own, turned, layout⟩ := layout_of_ofDrafts h
  have := layout.length
  omega

end TransitionPlan

end CrystalModel
