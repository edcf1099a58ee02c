import CrystalModel.Proofs.Structure.Classes

/-! # How a build fails

Every step of a build may end with errors of its own. A class without images ends it while the
interactions are laid down. The check of the classes never ends it, since what is laid down is
closed. -/
namespace CrystalModel

namespace BuildError

/-- A class that nothing stands for. -/
def IsEmptyClass : BuildError → Prop
  | .emptyClass .. => True
  | _ => False

/-- A class that is not closed. -/
def BreaksClass : BuildError → Prop
  | .defect (.classWithoutRepresentative _) => True
  | .defect (.classLacksRepresentative _) => True
  | .defect (.classWithMissingModel _) => True
  | .defect (.memberOfOtherClass ..) => True
  | .defect (.classNotClosed _) => True
  | _ => False

def OfClass (e : BuildError) : Prop := e.IsEmptyClass ∨ e.BreaksClass

end BuildError

open BuildError

/-- An outcome other than an error of that kind. -/
def Avoids {α : Type} (kind : BuildError → Prop) (x : Except BuildError α) : Prop :=
  ∀ e, x = .error e → ¬kind e

namespace Avoids

variable {α β σ : Type} {kind wider : BuildError → Prop} {x : Except BuildError α}

theorem ok (a : α) : Avoids kind (.ok a) := fun _ h => by cases h

theorem error {e : BuildError} (h : ¬kind e) : Avoids kind (.error e : Except BuildError α) := by
  intro _ same
  cases same
  exact h

theorem other {e : BuildError} (represented : ¬e.IsEmptyClass) (closed : ¬e.BreaksClass) :
    Avoids OfClass (.error e : Except BuildError α) :=
  .error (not_or.mpr ⟨represented, closed⟩)

theorem mono (h : Avoids wider x) (narrower : ∀ e, kind e → wider e) : Avoids kind x :=
  fun e failed among => h e failed (narrower e among)

theorem emptyClass (h : Avoids OfClass x) : Avoids IsEmptyClass x := h.mono fun _ => Or.inl

theorem breaksClass (h : Avoids OfClass x) : Avoids BreaksClass x := h.mono fun _ => Or.inr

theorem bind {f : α → Except BuildError β} (hx : Avoids kind x)
    (hf : ∀ a, x = .ok a → Avoids kind (f a)) : Avoids kind (x >>= f) := by
  intro e h
  rcases bind_error_iff.mp h with first | ⟨a, ha, later⟩
  · exact hx e first
  · exact hf a ha e later

theorem mapM {f : α → Except BuildError β} {xs : List α} (h : ∀ x ∈ xs, Avoids kind (f x)) :
    Avoids kind (xs.mapM f) := by
  intro e failed
  obtain ⟨x, hx, failed⟩ := mapM_error failed
  exact h x hx e failed

theorem forM {f : α → Except BuildError Unit} {xs : List α} (h : ∀ x ∈ xs, Avoids kind (f x)) :
    Avoids kind (xs.forM f) := by
  intro e failed
  obtain ⟨x, hx, failed⟩ := forM_error failed
  exact h x hx e failed

theorem foldlM {f : σ → α → Except BuildError σ} {init : σ} {xs : List α}
    (h : ∀ s, ∀ x ∈ xs, Avoids kind (f s x)) : Avoids kind (xs.foldlM f init) := by
  intro e failed
  obtain ⟨x, hx, s, failed⟩ := foldlM_error failed
  exact h s x hx e failed

end Avoids

theorem ReferenceData.checkPlaces_avoids (r : ReferenceData) : Avoids OfClass r.checkPlaces := by
  unfold checkPlaces
  split
  · exact .other id id
  · split
    · exact .other id id
    · split
      · exact .other id id
      · exact .ok ()

theorem PositionList.ofSites_avoids (s : Symmetry) (r : ReferenceData) :
    Avoids OfClass (ofSites s r) := by
  refine .foldlM fun l site _ => ?_
  unfold addSite
  split
  · refine .foldlM fun l image _ => ?_
    unfold PositionList.addImage
    split
    · exact .other id id
    · exact .ok _
  · exact .other id id

theorem PairInteraction.checkSites_avoids (r : ReferenceData) (i : PairInteraction) :
    Avoids OfClass (i.checkSites r) := by
  refine .forM fun site _ => ?_
  split
  · exact .ok ()
  · exact .other id id

namespace StructureDraft

open CrystalStructure

variable {d : StructureDraft}

theorem pairModel_avoids [Trigonometry] (i : PairInteraction) (v : PairView) (e : Nat)
    (origin image : Point) (members : List Nat) :
    Avoids OfClass (d.pairModel i v e origin members image) := by
  unfold pairModel
  simp only
  split
  · exact .other id id
  · split
    · exact .other id id
    · exact .ok _

theorem groupModel_avoids (i : GroupInteraction) (e : Nat) (origin : Point)
    (members : List Nat) (sequence : List Point) :
    Avoids OfClass (d.groupModel i e origin members sequence) := by
  unfold groupModel
  split
  · exact .other id id
  · refine .bind (.mapM fun partner _ => ?_) fun places _ => .ok _
    split
    · exact .ok _
    · exact .other id id

theorem cellPosition_avoids (position : Nat) (point : Point) :
    Avoids OfClass (d.cellPosition position point) := by
  unfold cellPosition
  simp only
  split
  · exact .other id id
  · refine .bind (.mapM fun model _ => ?_) fun targets _ => .ok _
    unfold pairTarget
    simp only
    split
    · exact .other id id
    · exact .ok _

theorem checkClasses_avoids (classes : List Nat) (models : List (Nat × List Nat)) :
    Avoids IsEmptyClass (checkClasses classes models) := by
  refine .forM ?_
  rintro ⟨representative, k⟩ _
  simp only
  split
  · exact .error id
  · split
    · exact .error id
    · refine .forM fun member _ => ?_
      split
      · exact .error id
      · split
        · exact .error id
        · split
          · exact .error id
          · exact .ok ()

theorem addPairView_avoids [Trigonometry] (i : PairInteraction) (v : PairView) :
    Avoids BreaksClass (addPairView i d v) := by
  unfold addPairView
  split
  · exact .error id
  · simp only
    split
    · exact .error id
    · split
      · exact .error id
      · exact .bind (.mapM fun image _ => (pairModel_avoids i v _ _ image _).breaksClass)
          fun _ _ => .ok _

theorem addPair_avoids [Trigonometry] (r : ReferenceData) (i : PairInteraction) :
    Avoids BreaksClass (d.addPair r i) :=
  .bind (i.checkSites_avoids r).breaksClass fun _ _ => .foldlM fun _ v _ => addPairView_avoids i v

theorem addGroup_avoids (i : GroupInteraction) : Avoids BreaksClass (d.addGroup i) := by
  unfold addGroup
  split
  · exact .error id
  · split
    · exact .error id
    · simp only
      split
      · exact .error id
      · exact .bind (.mapM fun sequence _ => (groupModel_avoids i _ _ _ sequence).breaksClass)
          fun _ _ => .ok _

end StructureDraft

namespace CrystalStructure

open StructureDraft

/-- What is laid down is closed, so no build ends in the check of its classes. -/
theorem build_avoids [Trigonometry] (r : ReferenceData) (config : Config) :
    Avoids BreaksClass (build r config) := by
  refine .bind r.checkPlaces_avoids.breaksClass fun _ _ => ?_
  refine .bind ?_ fun symmetry _ => ?_
  · cases r.symmetry (.ofWidth config.geometryTolerance) with
    | error e => exact .error id
    | ok s => exact .ok s
  split
  · exact .error id
  refine .bind (PositionList.ofSites_avoids symmetry r).breaksClass fun positions _ => ?_
  refine .bind (.foldlM fun d i _ => d.addPair_avoids r i) fun paired laid => ?_
  refine .bind (.foldlM fun d i _ => d.addGroup_avoids i) fun grouped grown => ?_
  refine .bind (.mapM fun x _ => (cellPosition_avoids x.2 x.1).breaksClass) fun cells _ => ?_
  obtain ⟨pairs, groups⟩ := classes_of_foldlM laid grown
  rw [pairs.closed.check, groups.closed.check]
  exact .ok _

end CrystalStructure

end CrystalModel
