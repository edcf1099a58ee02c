import CrystalModel.Proofs.Rule.Conservation
import CrystalModel.Proofs.Rule.Pairing

/-! # Completeness of the enumeration

The rules of a path, in both directions, are the admissible choices of pairs and start states and
the same choices backwards. A choice that is left out has its backward form among the rules. -/
namespace CrystalModel

namespace Rule

@[simp] theorem swapped_swapped (a : Rule) : a.swapped.swapped = a := rfl

@[simp] theorem swapped_inj {a b : Rule} : a.swapped = b.swapped ↔ a = b := by
  constructor
  · intro h
    exact congrArg swapped h
  · rintro rfl
    rfl

end Rule

namespace Generate

variable {particles : List Particle} {positions : List PositionOffer}
  {connectors : List Connector} {metropolis : Bool} {pairs : List StatePair} {rule known : Rule}
  {rules : List Rule} {start final : PathState}

def changeOf (start final : PathState) (i : Nat) : Change := (start[i]?.getD 0, final[i]?.getD 0)

/-- A choice of pairs and start states that leads to the final state and conserves matter. -/
structure Admits (particles : List Particle) (positions : List PositionOffer)
    (connectors : List Connector) (metropolis : Bool) (pairs : List StatePair)
    (start final : PathState) : Prop where
  offered : List.Forall₂ (fun pair (position : PositionOffer) => pair ∈ position.pairs) pairs
    positions
  started : Drawn start pairs
  reaches : canReachEnd start pairs positions = true
  finished : finish positions connectors pairs start 0 = some final
  balanced : ∀ e ∈ pairUp (movement positions connectors),
    isHop particles (changeOf start final e.1) (changeOf start final e.2) = true ∨
      isConversion particles metropolis (changeOf start final e.1) (changeOf start final e.2) = true

/-- Some choice leads from the start state to the final state. -/
def Admissible (particles : List Particle) (positions : List PositionOffer)
    (connectors : List Connector) (metropolis : Bool) (start final : PathState) : Prop :=
  ∃ pairs, Admits particles positions connectors metropolis pairs start final

theorem Made.admits (made : Made particles positions connectors metropolis pairs rule) :
    Admits particles positions connectors metropolis pairs rule.start rule.final := by
  refine ⟨made.offered, made.started, made.reaches, made.finished, ?_⟩
  have balanced := made.balanced
  simpa [isBalanced, Rule.exchanges, made.movement, changeAt, changeOf] using balanced

theorem Admits.made (h : Admits particles positions connectors metropolis pairs start final) :
    ∃ rule, Made particles positions connectors metropolis pairs rule ∧ rule.start = start ∧
      rule.final = final := by
  refine ⟨⟨start, inFlight positions pairs, final, movement positions connectors,
    if start.any (isVacancy particles) then (pathFlags connectors).union .vacancy
      else pathFlags connectors⟩, ?_, rfl, rfl⟩
  refine ⟨h.offered, h.started, h.reaches, h.finished, rfl, rfl, rfl, ?_⟩
  have balanced := h.balanced
  simpa [isBalanced, Rule.exchanges, changeAt, changeOf] using balanced

/-- The rule is among the rules, or one that undoes it is. -/
def Covered (rules : List Rule) (rule : Rule) : Prop :=
  rule ∈ rules ∨ ∃ known ∈ rules, known.Undoes rule

theorem mem_addRule_of_mem (h : known ∈ rules) : known ∈ addRule rules rule := by
  unfold addRule
  split
  · exact h
  · exact List.mem_append_left _ h

theorem covered_addRule (rules : List Rule) (rule : Rule) : Covered (addRule rules rule) rule := by
  unfold addRule
  split
  · next found =>
    obtain ⟨known, among, same | undoes⟩ := by simpa using found
    · exact Or.inl (same ▸ among)
    · exact Or.inr ⟨known, among, undoes⟩
  · exact Or.inl (by simp)

theorem Covered.addRule {next : Rule} (h : Covered rules rule) :
    Covered (addRule rules next) rule := by
  rcases h with among | ⟨known, among, undoes⟩
  · exact Or.inl (mem_addRule_of_mem among)
  · exact Or.inr ⟨known, mem_addRule_of_mem among, undoes⟩

theorem covered_foldl {candidates : List Rule} (h : rule ∈ candidates ∨ Covered rules rule) :
    Covered (candidates.foldl addRule rules) rule := by
  induction candidates generalizing rules with
  | nil => exact h.resolve_left List.not_mem_nil
  | cons next rest ih =>
    refine ih ?_
    rcases h with among | covered
    · rcases List.mem_cons.mp among with rfl | later
      · exact Or.inr (covered_addRule rules rule)
      · exact Or.inl later
    · exact Or.inr covered.addRule

theorem addRule_nodup (nodup : rules.Nodup) : (addRule rules rule).Nodup := by
  unfold addRule
  split
  · exact nodup
  · next new =>
    refine pairwise_concat nodup ?_
    rintro known among rfl
    exact new (List.any_eq_true.mpr ⟨known, among, decide_eq_true (Or.inl rfl)⟩)

end Generate

section PathRules

variable {particles : List Particle} {positions : List PositionOffer}
  {connectors : List Connector} {metropolis : Bool}

theorem pathRules_nodup (particles : List Particle) (positions : List PositionOffer)
    (connectors : List Connector) (metropolis : Bool) :
    (pathRules particles positions connectors metropolis).Nodup := by
  unfold pathRules
  split
  · exact .nil
  · refine List.foldlRecOn (motive := fun rules : List Rule => rules.Nodup) _ _ .nil ?_
    intro rules nodup rule _
    exact Generate.addRule_nodup nodup

theorem covered_of_made (fits : positions.length = connectors.length + 1)
    (short : positions.length ≤ pathLimit) {pairs : List StatePair} {rule : Rule}
    (made : Generate.Made particles positions connectors metropolis pairs rule) :
    Generate.Covered (pathRules particles positions connectors metropolis) rule := by
  rw [pathRules, if_neg (by omega)]
  exact Generate.covered_foldl (Or.inl (Generate.mem_candidates.mpr ⟨pairs, made⟩))

theorem bothWays_nodup {rules : List Rule} (nodup : rules.Nodup)
    (apart : rules.Pairwise fun a b => ¬a.Undoes b) : (bothWays rules).Nodup := by
  refine List.nodup_flatMap.mpr ⟨?_, ?_⟩
  · intro rule _
    by_cases still : rule.swapped = rule
    · simp [still]
    · simp [still, Ne.symm still]
  · refine (List.Pairwise.and nodup apart).imp ?_
    rintro a b ⟨differ, apart⟩ x hx hy
    have among {rule : Rule} (h : x ∈ if rule.swapped = rule then [rule] else
        [rule, rule.swapped]) : x = rule ∨ x = rule.swapped := by
      split at h <;> simp_all
    rcases among hx with rfl | rfl
    · rcases among hy with same | back
      · exact differ same
      · exact apart (back ▸ b.swapped_undoes)
    · rcases among hy with back | same
      · exact apart (Rule.undoes_comm.mp (back ▸ a.swapped_undoes))
      · exact differ (Rule.swapped_inj.mp same)

theorem swapped_mem_bothWays {rules : List Rule} {rule : Rule} (h : rule ∈ bothWays rules) :
    rule.swapped ∈ bothWays rules := by
  obtain ⟨own, among, rfl | rfl⟩ := mem_bothWays.mp h
  · exact mem_bothWays.mpr ⟨rule, among, Or.inr rfl⟩
  · exact mem_bothWays.mpr ⟨own, among, Or.inl own.swapped_swapped⟩

open Generate in
theorem admissible_of_mem_bothWays {rule : Rule}
    (h : rule ∈ bothWays (pathRules particles positions connectors metropolis)) :
    Admissible particles positions connectors metropolis rule.start rule.final ∨
      Admissible particles positions connectors metropolis rule.final rule.start := by
  obtain ⟨own, listed, direction⟩ := mem_bothWays.mp h
  obtain ⟨_, pairs, made⟩ := made_of_mem_pathRules listed
  rcases direction with rfl | rfl
  · exact Or.inl ⟨pairs, made.admits⟩
  · exact Or.inr ⟨pairs, made.admits⟩

open Generate in
/-- Every admissible choice has a rule, which may be the backward form of the one that was kept. -/
theorem exists_rule_of_admissible (fits : positions.length = connectors.length + 1)
    (short : positions.length ≤ pathLimit) {start final : PathState}
    (h : Admissible particles positions connectors metropolis start final) :
    ∃ rule ∈ bothWays (pathRules particles positions connectors metropolis),
      rule.start = start ∧ rule.final = final := by
  obtain ⟨pairs, admits⟩ := h
  obtain ⟨rule, made, rfl, rfl⟩ := admits.made
  rcases covered_of_made fits short made with among | ⟨known, among, undoes⟩
  · exact ⟨rule, mem_bothWays.mpr ⟨rule, among, Or.inl rfl⟩, rfl, rfl⟩
  · exact ⟨known.swapped, mem_bothWays.mpr ⟨known, among, Or.inr rfl⟩, undoes.2, undoes.1⟩

end PathRules

open Generate in
/-- The rules of a path in both directions: none is listed twice, each comes with the same rule
running backwards, and their start and final states are those of the admissible choices and of the
same choices backwards. -/
theorem bothWays_complete (particles : List Particle) (positions : List PositionOffer)
    (connectors : List Connector) (metropolis : Bool)
    (fits : positions.length = connectors.length + 1) (short : positions.length ≤ pathLimit) :
    (bothWays (pathRules particles positions connectors metropolis)).Nodup ∧
      (∀ rule ∈ bothWays (pathRules particles positions connectors metropolis),
        rule.swapped ∈ bothWays (pathRules particles positions connectors metropolis)) ∧
      ∀ start final, (∃ rule ∈ bothWays (pathRules particles positions connectors metropolis),
          rule.start = start ∧ rule.final = final) ↔
        Admissible particles positions connectors metropolis start final ∨
          Admissible particles positions connectors metropolis final start := by
  refine ⟨?_, ?_, ?_⟩
  · exact bothWays_nodup (pathRules_nodup particles positions connectors metropolis)
      (pathRules_apart particles positions connectors metropolis)
  · intro rule among
    exact swapped_mem_bothWays among
  · intro start final
    constructor
    · rintro ⟨rule, among, rfl, rfl⟩
      exact admissible_of_mem_bothWays among
    · intro admissible
      rcases admissible with forward | backward
      · exact exists_rule_of_admissible fits short forward
      · obtain ⟨rule, among, rfl, rfl⟩ := exists_rule_of_admissible fits short backward
        exact ⟨rule.swapped, swapped_mem_bothWays among, rfl, rfl⟩

open Generate in
theorem ions_complete :
    finish (List.replicate 3 (.of [⟨3, 4⟩] false)) [.dynamic, .dynamic]
        (List.replicate 3 ⟨3, 4⟩) [3, 3, 4] 0 = none ∧
      Admissible ions (List.replicate 3 (.of [⟨3, 4⟩] false)) [.dynamic, .dynamic] false
        [4, 3, 3] [3, 3, 4] ∧
      ∃ rule ∈ bothWays (pathRules ions (List.replicate 3 (.of [⟨3, 4⟩] false))
          [.dynamic, .dynamic] false), rule.start = [3, 3, 4] ∧ rule.final = [4, 3, 3] := by
  have walks : finish (List.replicate 3 (.of [⟨3, 4⟩] false)) [.dynamic, .dynamic]
        (List.replicate 3 ⟨3, 4⟩) [3, 3, 4] 0 = none ∧
      finish (List.replicate 3 (.of [⟨3, 4⟩] false)) [.dynamic, .dynamic]
        (List.replicate 3 ⟨3, 4⟩) [4, 3, 3] 0 = some [3, 3, 4] ∧
      movement (List.replicate 3 (.of [⟨3, 4⟩] false)) [.dynamic, .dynamic] = [0, 1, 1, 2] := by
    decide +kernel
  obtain ⟨back, finished, exchanges⟩ := walks
  have admissible : Admissible ions (List.replicate 3 (.of [⟨3, 4⟩] false)) [.dynamic, .dynamic]
      false [4, 3, 3] [3, 3, 4] := by
    refine ⟨List.replicate 3 ⟨3, 4⟩, ?_, ?_, by decide, finished, ?_⟩
    · simp [PositionOffer.of]
    · simp [Drawn]
    · rw [exchanges]
      decide
  obtain ⟨_, _, complete⟩ := bothWays_complete ions (List.replicate 3 (.of [⟨3, 4⟩] false))
    [.dynamic, .dynamic] false rfl (by decide)
  exact ⟨back, admissible, (complete _ _).mpr (Or.inr admissible)⟩

end CrystalModel
