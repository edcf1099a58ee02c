import CrystalModel.Proofs.Places
import CrystalModel.Rule.Generate

/-! # What the enumeration of rules returns

Every rule of a path is made of one exchange pair per position and of one of its two states. A rule
that is left out is one whose backward form stays. -/
namespace CrystalModel

theorem mem_choices {α : Type} {xss : List (List α)} {xs : List α} :
    xs ∈ choices xss ↔ List.Forall₂ (fun x ys => x ∈ ys) xs xss := by
  induction xss generalizing xs with
  | nil => simp [choices]
  | cons ys rest ih =>
    simp only [choices, List.mem_flatMap, List.mem_map, ih]
    constructor
    · rintro ⟨x, hx, others, chosen, rfl⟩
      exact .cons hx chosen
    · intro h
      cases h with
      | cons hx chosen => exact ⟨_, hx, _, chosen, rfl⟩

namespace Generate

variable {particles : List Particle} {positions : List PositionOffer}
  {connectors : List Connector} {metropolis : Bool} {pairs : List StatePair} {rule : Rule}

/-- Every particle of the state is the donor or the acceptor of its pair. -/
def Drawn (state : PathState) (pairs : List StatePair) : Prop :=
  List.Forall₂ (fun particle (pair : StatePair) => particle = pair.donor ∨
    particle = pair.acceptor) state pairs

/-- A rule beside the exchange pairs that it was made of, one per path position. -/
structure Made (particles : List Particle) (positions : List PositionOffer)
    (connectors : List Connector) (metropolis : Bool) (pairs : List StatePair) (rule : Rule) :
    Prop where
  offered : List.Forall₂ (fun pair (position : PositionOffer) => pair ∈ position.pairs) pairs
    positions
  started : Drawn rule.start pairs
  reaches : canReachEnd rule.start pairs positions = true
  finished : finish positions connectors pairs rule.start 0 = some rule.final
  transition : rule.transition = inFlight positions pairs
  movement : rule.movement = movement positions connectors
  flags : rule.flags = if rule.start.any (isVacancy particles) then
    (pathFlags connectors).union .vacancy else pathFlags connectors
  balanced : isBalanced particles metropolis rule = true

theorem mem_starts {start : PathState} :
    start ∈ choices (pairs.map fun p => [p.donor, p.acceptor]) ↔ Drawn start pairs := by
  rw [mem_choices, List.forall₂_map_right_iff, Drawn]
  simp

theorem candidate_some_iff {start : PathState} :
    candidate particles positions connectors metropolis pairs start = some rule ↔
      rule.start = start ∧ canReachEnd start pairs positions = true ∧
        finish positions connectors pairs start 0 = some rule.final ∧
        rule.transition = inFlight positions pairs ∧ rule.movement = movement positions connectors ∧
        (rule.flags = if start.any (isVacancy particles) then
          (pathFlags connectors).union .vacancy else pathFlags connectors) ∧
        isBalanced particles metropolis rule = true := by
  obtain ⟨first, transition, final, steps, flags⟩ := rule
  unfold candidate
  cases reaches : canReachEnd start pairs positions with
  | false => simp
  | true =>
    cases finished : finish positions connectors pairs start 0 with
    | none => simp
    | some last =>
      simp only [Bool.not_true, Bool.false_eq_true, if_false, Option.ite_none_right_eq_some,
        Option.some.injEq, Rule.mk.injEq, true_and]
      constructor
      · rintro ⟨balanced, rfl, rfl, rfl, rfl, rfl⟩
        exact ⟨rfl, rfl, rfl, rfl, rfl, balanced⟩
      · rintro ⟨rfl, rfl, rfl, rfl, rfl, balanced⟩
        exact ⟨balanced, rfl, rfl, rfl, rfl, rfl⟩

theorem mem_candidates : rule ∈ candidates particles positions connectors metropolis ↔
    ∃ pairs, Made particles positions connectors metropolis pairs rule := by
  rw [candidates, List.mem_flatMap]
  refine exists_congr fun pairs => ?_
  rw [mem_choices, List.forall₂_map_right_iff, List.mem_filterMap]
  constructor
  · rintro ⟨offered, start, chosen, found⟩
    obtain ⟨rfl, reaches, finished, transition, movement, flags, balanced⟩ :=
      candidate_some_iff.mp found
    exact ⟨offered, mem_starts.mp chosen, reaches, finished, transition, movement, flags, balanced⟩
  · intro made
    exact ⟨made.offered, rule.start, mem_starts.mpr made.started, candidate_some_iff.mpr
      ⟨rfl, made.reaches, made.finished, made.transition, made.movement, made.flags,
        made.balanced⟩⟩

theorem Made.length (made : Made particles positions connectors metropolis pairs rule) :
    rule.start.length = positions.length :=
  (List.Forall₂.length_eq made.started).trans made.offered.length_eq

theorem Made.transition_length (made : Made particles positions connectors metropolis pairs rule) :
    rule.transition.length = positions.length := by
  rw [made.transition, inFlight, List.length_map, List.length_zip, made.offered.length_eq,
    Nat.min_self]

theorem Drawn.set {state : PathState} (drawn : Drawn state pairs) {i : Nat} {pair : StatePair}
    {particle : UInt8} (hi : pairs[i]? = some pair)
    (one : particle = pair.donor ∨ particle = pair.acceptor) : Drawn
    (state.set i particle) pairs := by
  induction drawn generalizing i with
  | nil => cases hi
  | @cons first own state pairs hfirst rest ih =>
    cases i with
    | zero =>
      cases hi
      exact .cons one rest
    | succ i => exact .cons hfirst (ih hi)

theorem toggle_some {pair : StatePair} {current particle : UInt8} {donor : Bool}
    (h : toggle pair current = some (particle, donor)) :
    particle = pair.donor ∨ particle = pair.acceptor := by
  unfold toggle at h
  split at h
  · cases h
    exact Or.inl rfl
  · split at h
    · cases h
      exact Or.inr rfl
    · cases h

theorem Drawn.exchange {state next : PathState} (drawn : Drawn state pairs) {i j : Nat}
    (h : exchange pairs state i j = some next) : Drawn next pairs := by
  simp only [Generate.exchange, Option.bind_eq_bind, Option.bind_eq_some_iff,
    Option.ite_none_left_eq_some, Option.some.injEq] at h
  obtain ⟨own, hi, _, _, ⟨first, _⟩, toggled, own', hj, _, _, ⟨second, _⟩, toggled', _, rfl⟩ := h
  exact (drawn.set hi (toggle_some toggled)).set hj (toggle_some toggled')

theorem Drawn.finish {state final : PathState} (drawn : Drawn state pairs) {i : Nat}
    (h : finish positions connectors pairs state i = some final) : Drawn final pairs := by
  fun_induction Generate.finish positions connectors pairs state i with
  | case1 => cases h
  | case2 state i _ _ next exchanged ih => exact ih (drawn.exchange exchanged) h
  | case3 state i _ _ ih => exact ih drawn h
  | case4 =>
    cases h
    exact drawn

theorem mem_addRule {rules : List Rule} {known : Rule} (h : known ∈ addRule rules rule) :
    known ∈ rules ∨ known = rule := by
  unfold addRule at h
  split at h
  · exact Or.inl h
  · simpa using h

end Generate

section PathRules

variable {particles : List Particle} {positions : List PositionOffer}
  {connectors : List Connector} {metropolis : Bool} {rule : Rule}

theorem made_of_mem_pathRules (h : rule ∈ pathRules particles positions connectors metropolis) :
    positions.length = connectors.length + 1 ∧
      ∃ pairs, Generate.Made particles positions connectors metropolis pairs rule := by
  unfold pathRules at h
  split at h
  · cases h
  · next fits =>
    refine ⟨by omega, Generate.mem_candidates.mp ?_⟩
    refine List.foldlRecOn (motive := fun rules : List Rule => ∀ known ∈ rules,
      known ∈ Generate.candidates particles positions connectors metropolis) _ _ (by simp) ?_ rule h
    intro rules candidates candidate among known hknown
    rcases Generate.mem_addRule hknown with old | rfl
    · exact candidates known old
    · exact among

end PathRules

end CrystalModel
