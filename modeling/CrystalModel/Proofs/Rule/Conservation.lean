import CrystalModel.Proofs.Rule.Toggling

/-! # Conservation of particles

A rule is balanced exchange by exchange, while its exchanges form chains. A position between two
exchanges of a chain is toggled twice and keeps its particle, so no exchange of a chain can trade
particles: these only change a property. What trades particles stands alone. -/
namespace CrystalModel

section Trades

variable {α β : Type} {f : α → β} {xs ys : List α}

theorem perm_of_trades {trades : List (Nat × Nat)} (length : xs.length = ys.length)
    (inside : ∀ e ∈ trades, e.1 < xs.length ∧ e.2 < xs.length) (apart : trades.Pairwise Clear)
    (traded : ∀ e ∈ trades, ys[e.1]? = xs[e.2]? ∧ ys[e.2]? = xs[e.1]?)
    (kept : ∀ p, (∀ e ∈ trades, p ≠ e.1 ∧ p ≠ e.2) → (ys[p]?).map f = (xs[p]?).map f) :
    (ys.map f).Perm (xs.map f) := by
  induction trades generalizing xs with
  | nil =>
    have same : ys.map f = xs.map f := by
      refine List.ext_getElem? fun p => ?_
      rw [List.getElem?_map, List.getElem?_map]
      exact kept p (by simp)
    rw [same]
  | cons e rest ih =>
    obtain ⟨⟨first, second⟩, others⟩ := List.forall_mem_cons.mp inside
    obtain ⟨clear, apart⟩ := List.pairwise_cons.mp apart
    obtain ⟨here, traded⟩ := List.forall_mem_cons.mp traded
    have value := getElem?_swapPlaces first second
    have away {p : Nat} (start : p ≠ e.1) (landing : p ≠ e.2) :
        (swapPlaces xs e.1 e.2)[p]? = xs[p]? := by
      rw [value, Equiv.swap_apply_of_ne_of_ne start landing]
    refine (ih ?_ ?_ apart ?_ ?_).trans ((swapPlaces_perm first second).map f)
    · rw [swapPlaces_length, length]
    · intro g hg
      rw [swapPlaces_length]
      exact others g hg
    · intro g hg
      obtain ⟨a, b, c, d⟩ := clear g hg
      rw [away (Ne.symm b) (Ne.symm d), away (Ne.symm a) (Ne.symm c)]
      exact traded g hg
    · intro p free
      by_cases start : p = e.1
      · rw [start, value, Equiv.swap_apply_left, here.1]
      · by_cases landing : p = e.2
        · rw [landing, value, Equiv.swap_apply_right, here.2]
        · rw [away start landing]
          refine kept p (List.forall_mem_cons.mpr ⟨⟨start, landing⟩, free⟩)

end Trades

namespace Generate

variable {particles : List Particle} {positions : List PositionOffer}
  {connectors : List Connector} {metropolis : Bool} {pairs : List StatePair} {rule : Rule}

/-- The particle has the same symbol before and after. -/
def Alike (particles : List Particle) (c : Change) : Prop :=
  symbol particles c.1 = symbol particles c.2

theorem alike_or_traded {l r : Change} (h : (isHop particles l r ||
      isConversion particles metropolis l r) = true) :
    (Alike particles l ∧ Alike particles r) ∨ (l.1 = r.2 ∧ l.2 = r.1) := by
  rcases Bool.or_eq_true_iff.mp h with hop | conversion
  · simp only [isHop, Bool.and_eq_true, beq_iff_eq] at hop
    exact Or.inr ⟨hop.1.2, hop.2⟩
  · by_cases traded : l.1 = r.2 ∧ l.2 = r.1
    · exact Or.inr traded
    · have apart : (l.1 == r.2 && l.2 == r.1) = false := by simpa using traded
      simp only [isConversion, apart] at conversion
      refine Or.inl ?_
      cases metropolis <;> simpa [Alike] using conversion

theorem isBalanced_iff : isBalanced particles metropolis rule = true ↔
    ∀ e ∈ rule.exchanges, (isHop particles (changeAt rule e.1) (changeAt rule e.2) ||
      isConversion particles metropolis (changeAt rule e.1) (changeAt rule e.2)) = true := by
  rw [isBalanced, List.all_eq_true]

theorem Made.unchanged (made : Made particles positions connectors metropolis pairs rule)
    (fits : positions.length = connectors.length + 1) {p : Nat}
    (even : p ∈ (carried positions connectors).map Prod.fst ↔
      p ∈ (carried positions connectors).map Prod.snd) : rule.final[p]? = rule.start[p]? := by
  have ascending := carried_ascending positions connectors
  have toggled := made.toggled fits
  cases own : pairs[p]? with
  | none =>
    have short := List.getElem?_eq_none_iff.mp own
    rw [List.getElem?_eq_none (by rw [toggled.drawn.length_eq]; exact short),
      List.getElem?_eq_none (by rw [List.Forall₂.length_eq made.started]; exact short)]
  | some pair =>
    obtain ⟨x, hx, one⟩ := aligned_right made.started own
    rw [toggled.value p pair x own hx, hx, count_exchanged]
    by_cases start : p ∈ (carried positions connectors).map Prod.fst
    · rw [List.count_eq_one_of_mem ascending.starts_nodup start,
        List.count_eq_one_of_mem ascending.ends_nodup (even.mp start)]
      exact congrArg some (flipped_flipped one)
    · rw [List.count_eq_zero_of_not_mem start, List.count_eq_zero_of_not_mem (mt even.mpr start)]
      rfl

theorem Made.changes (made : Made particles positions connectors metropolis pairs rule)
    (fits : positions.length = connectors.length + 1) {p : Nat} (inside : p < positions.length) :
    rule.start[p]? = some (changeAt rule p).1 ∧ rule.final[p]? = some (changeAt rule p).2 := by
  have before : p < rule.start.length := by rw [made.length]; exact inside
  have after : p < rule.final.length := by
    rw [(made.toggled fits).drawn.length_eq, made.offered.length_eq]
    exact inside
  simp [changeAt, before, after]

theorem carried_inside (fits : positions.length = connectors.length + 1) {e : Nat × Nat}
    (he : e ∈ carried positions connectors) : e.1 < positions.length ∧ e.2 < positions.length := by
  have forward := (carried_ascending positions connectors).forward e he
  have landing := exchanges_inside fits (mem_carried.mp he).1
  exact ⟨by omega, landing⟩

/-- The exchange changes a symbol at one of its ends. -/
def Mixes (particles : List Particle) (rule : Rule) (e : Nat × Nat) : Prop :=
  ¬(Alike particles (changeAt rule e.1) ∧ Alike particles (changeAt rule e.2))

instance (particles : List Particle) (rule : Rule) (e : Nat × Nat) :
    Decidable (Mixes particles rule e) :=
  inferInstanceAs (Decidable ¬(symbol _ _ = symbol _ _ ∧ symbol _ _ = symbol _ _))

theorem Made.traded (made : Made particles positions connectors metropolis pairs rule)
    {e : Nat × Nat} (he : e ∈ carried positions connectors) (mixes : Mixes particles rule e) :
    (changeAt rule e.1).1 = (changeAt rule e.2).2 ∧
      (changeAt rule e.1).2 = (changeAt rule e.2).1 := by
  have among : e ∈ rule.exchanges := by
    rw [made.exchanges_eq]
    exact (mem_carried.mp he).1
  exact (alike_or_traded (isBalanced_iff.mp made.balanced e among)).resolve_left mixes

/-- An exchange that changes a symbol is no part of a chain: the position in common would keep its
particle, and with it the exchange all its symbols. -/
theorem Made.mixing_apart (made : Made particles positions connectors metropolis pairs rule)
    (fits : positions.length = connectors.length + 1) :
    ((carried positions connectors).filter (Mixes particles rule ·)).Pairwise Clear := by
  have ascending := carried_ascending positions connectors
  refine (ascending.ordered.filter _).imp_of_mem ?_
  intro e f he hf behind
  obtain ⟨he, mixes⟩ := List.mem_filter.mp he
  obtain ⟨hf, mixes'⟩ := List.mem_filter.mp hf
  have := ascending.forward e he
  have := ascending.forward f hf
  have apart : e.2 ≠ f.1 := by
    intro meet
    have ends : e.2 ∈ (carried positions connectors).map Prod.snd := List.mem_map_of_mem he
    have starts : e.2 ∈ (carried positions connectors).map Prod.fst :=
      meet ▸ List.mem_map_of_mem hf
    have keep := made.unchanged fits (iff_of_true starts ends)
    obtain ⟨before, after⟩ := made.changes fits (carried_inside fits he).2
    rw [before, after, Option.some.injEq] at keep
    obtain ⟨there, back⟩ := made.traded he (of_decide_eq_true mixes)
    refine of_decide_eq_true mixes ⟨?_, ?_⟩
    · rw [Alike, there, back, keep]
    · rw [Alike, keep]
  exact ⟨by omega, by omega, apart, by omega⟩

theorem Made.alike_elsewhere (made : Made particles positions connectors metropolis pairs rule)
    (fits : positions.length = connectors.length + 1) {p : Nat}
    (free : ∀ e ∈ (carried positions connectors).filter (Mixes particles rule ·),
      p ≠ e.1 ∧ p ≠ e.2) :
    (rule.final[p]?).map (symbol particles) = (rule.start[p]?).map (symbol particles) := by
  have settled : ∀ e ∈ carried positions connectors, p = e.1 ∨ p = e.2 →
      (rule.final[p]?).map (symbol particles) = (rule.start[p]?).map (symbol particles) := by
    intro e he one
    have keeps : ¬Mixes particles rule e := by
      intro mixes
      obtain ⟨first, second⟩ := free e (List.mem_filter.mpr ⟨he, decide_eq_true mixes⟩)
      rcases one with same | same
      · exact first same
      · exact second same
    obtain ⟨first, second⟩ := Classical.not_not.mp keeps
    obtain ⟨inside, landing⟩ := carried_inside fits he
    rcases one with rfl | rfl
    · obtain ⟨before, after⟩ := made.changes fits inside
      rw [before, after]
      exact congrArg some first.symm
    · obtain ⟨before, after⟩ := made.changes fits landing
      rw [before, after]
      exact congrArg some second.symm
  by_cases start : p ∈ (carried positions connectors).map Prod.fst
  · obtain ⟨e, he, same⟩ := List.mem_map.mp start
    exact settled e he (Or.inl same.symm)
  · by_cases landing : p ∈ (carried positions connectors).map Prod.snd
    · obtain ⟨e, he, same⟩ := List.mem_map.mp landing
      exact settled e he (Or.inr same.symm)
    · rw [made.unchanged fits (iff_of_false start landing)]

end Generate

open Generate in
/-- The symbols on the path are the same before and after a rule, up to order. All places without a
particle have the symbol `none`. -/
theorem Rule.symbols_conserved (particles : List Particle) (positions : List PositionOffer)
    (connectors : List Connector) (metropolis : Bool) (rule : Rule)
    (h : rule ∈ pathRules particles positions connectors metropolis) :
    (rule.start.map (symbol particles)).Perm (rule.final.map (symbol particles)) := by
  obtain ⟨fits, pairs, made⟩ := made_of_mem_pathRules h
  have length : rule.start.length = rule.final.length := by
    rw [made.length, (made.toggled fits).drawn.length_eq, made.offered.length_eq]
  refine (perm_of_trades length ?_ (made.mixing_apart fits) ?_ ?_).symm
  · intro e he
    rw [made.length]
    exact carried_inside fits (List.mem_of_mem_filter he)
  · intro e he
    obtain ⟨he, mixes⟩ := List.mem_filter.mp he
    obtain ⟨inside, landing⟩ := carried_inside fits he
    obtain ⟨start, final⟩ := made.changes fits inside
    obtain ⟨start', final'⟩ := made.changes fits landing
    obtain ⟨there, back⟩ := made.traded he (of_decide_eq_true mixes)
    rw [start, start', final, final', there, back]
    exact ⟨rfl, rfl⟩
  · intro p free
    exact made.alike_elsewhere fits free

/-- A species and its vacancy, and an ion of two charges. -/
def ions : List Particle :=
  [.void, ⟨1, "A", "A", 1.0, false, .active⟩, ⟨2, "Vc", "Vc", 0.0, true, .active⟩,
    ⟨3, "Fe2", "Fe", 2.0, false, .active⟩, ⟨4, "Fe3", "Fe", 3.0, false, .active⟩]

theorem ions_conserved :
    (∃ rule ∈ pathRules ions ([⟨3, 4⟩, ⟨3, 4⟩, ⟨3, 4⟩, ⟨1, 2⟩, ⟨1, 2⟩].map (.of [·] false))
        [.dynamic, .dynamic, .static, .dynamic] false,
      rule.start = [4, 3, 3, 1, 2] ∧ rule.final = [3, 3, 4, 2, 1] ∧
      (rule.start.map (Generate.symbol ions)).Perm (rule.final.map (Generate.symbol ions))) ∧
    ∃ rule ∈ pathRules ions ([⟨1, 3⟩, ⟨1, 3⟩].map (.of [·] false)) [.dynamic] true,
      rule.start = [1, 3] ∧ rule.final = [3, 1] ∧
      (rule.start.map (Generate.symbol ions)).Perm (rule.final.map (Generate.symbol ions)) := by
  have found : (⟨[4, 3, 3, 1, 2], [0, 0, 0, 0, 0], [3, 3, 4, 2, 1], [0, 1, 1, 2, 3, 4], ⟨30⟩⟩ :
        Rule) ∈ pathRules ions ([⟨3, 4⟩, ⟨3, 4⟩, ⟨3, 4⟩, ⟨1, 2⟩, ⟨1, 2⟩].map (.of [·] false))
          [.dynamic, .dynamic, .static, .dynamic] false ∧
      (⟨[1, 3], [0, 0], [3, 1], [0, 1], ⟨1⟩⟩ : Rule) ∈
        pathRules ions ([⟨1, 3⟩, ⟨1, 3⟩].map (.of [·] false)) [.dynamic] true := by
    decide +kernel
  obtain ⟨path, free⟩ := found
  exact ⟨⟨_, path, rfl, rfl, Rule.symbols_conserved _ _ _ _ _ path⟩,
    _, free, rfl, rfl, Rule.symbols_conserved _ _ _ _ _ free⟩

end CrystalModel
