import CrystalModel.Proofs.Rule.Toggling

/-! # Unstable positions

A particle crosses an unstable position only in flight. A rule finds all of these empty, and leaves
those empty that its exchanges pass over. The ends of a path are not passed over: an exchange from
an unstable first position, or to an unstable last one, leaves the donor of that position there. -/
namespace CrystalModel

namespace PositionOffer

def Built (position : PositionOffer) : Prop := ∃ pairs unstable, position = .of pairs unstable

@[simp] theorem built_of (pairs : List StatePair) (unstable : Bool) :
    (PositionOffer.of pairs unstable).Built :=
  ⟨pairs, unstable, rfl⟩

theorem Built.acceptor {position : PositionOffer} (built : position.Built)
    (unstable : position.unstable = true) {pair : StatePair} (h : pair ∈ position.pairs) :
    pair.acceptor = voidByte := by
  obtain ⟨pairs, flag, rfl⟩ := built
  cases flag with
  | false => cases unstable
  | true =>
    obtain ⟨_, _, rfl⟩ := List.mem_map.mp h
    rfl

end PositionOffer

namespace Generate

/-- An exchange ends at the unstable position: it is the first one, in front of a dynamic connector,
or the last one, and a dynamic connector leads to it over unstable positions only. -/
def Exposed (positions : List PositionOffer) (connectors : List Connector) (p : Nat) : Prop :=
  isUnstable positions p = true ∧
    (p = 0 ∧ connectors[0]? = some .dynamic ∨
      p + 1 = positions.length ∧ ∃ q < p, connectors[q]? = some .dynamic ∧
        (q = 0 ∨ isUnstable positions q = false) ∧
        ∀ k < p, q < k → isUnstable positions k = true)

instance (positions : List PositionOffer) (connectors : List Connector) (p : Nat) :
    Decidable (Exposed positions connectors p) :=
  inferInstanceAs (Decidable (_ ∧ (_ ∨ _ ∧ ∃ q < p, _)))

/-- Before a rule its unstable positions are empty, and in flight they alone are occupied, each by
the donor of its pair. -/
structure Departs (positions : List PositionOffer) (pairs : List StatePair) (rule : Rule) :
    Prop where
  start : ∀ p, isUnstable positions p = true → rule.start[p]? = some voidByte
  length : rule.transition.length = positions.length
  along : ∀ p pair, pairs[p]? = some pair →
    rule.transition[p]? = some (if isUnstable positions p then pair.donor else voidByte)

section Walk

variable {positions : List PositionOffer} {connectors : List Connector} {i p q : Nat}

theorem isUnstable_iff : isUnstable positions p = true ↔
    ∃ position, positions[p]? = some position ∧ position.unstable = true := by
  unfold isUnstable
  cases positions[p]? <;> simp

theorem dynamic_of_mem_exchanges {e : Nat × Nat} (h : e ∈ exchanges positions connectors i) :
    connectors[e.1]? = some .dynamic := by
  fun_induction exchanges positions connectors i with
  | case1 i _ dynamic ih =>
    rcases List.mem_cons.mp h with rfl | later
    · exact dynamic
    · exact ih later
  | case2 i _ _ ih => exact ih h
  | case3 => cases h

theorem mem_exchanges_of_dynamic (ahead : i ≤ q) (visited : i = q ∨ isUnstable positions q = false)
    (dynamic : connectors[q]? = some .dynamic) :
    (q, passOver positions q + 1) ∈ exchanges positions connectors i := by
  fun_induction exchanges positions connectors i with
  | case1 i _ _ ih =>
    by_cases here : i = q
    · rw [here]
      exact List.mem_cons_self
    · have stable := visited.resolve_left here
      have further : passOver positions i < q := by
        by_contra beyond
        have unstable := (@passOver_between positions i q (by omega) (by omega)).1
        rw [stable] at unstable
        cases unstable
      exact List.mem_cons_of_mem _ (ih further (Or.inr stable))
  | case2 i _ static ih =>
    have apart : i ≠ q := by
      rintro rfl
      exact static dynamic
    exact ih (by omega) (Or.inr (visited.resolve_left apart))
  | case3 i spent =>
    have inside := (List.getElem?_eq_some_iff.mp dynamic).1
    omega

theorem passOver_last (before : q < p) (last : p + 1 = positions.length)
    (between : ∀ k < p, q < k → isUnstable positions k = true) : passOver positions q + 1 = p := by
  have ahead := le_passOver positions q
  have inside := @passOver_inside positions q (by omega)
  rcases passOver_stops positions q with stable | reached
  · by_contra short
    rw [between (passOver positions q + 1) (by omega) (by omega)] at stable
    cases stable
  · omega

theorem not_strays_iff {e : Nat × Nat} :
    ¬Strays positions e ↔ e.1 = 0 ∨ isUnstable positions e.1 = false := by
  rw [Strays, not_and, Bool.not_eq_true, ← Nat.ne_zero_iff_zero_lt, ← or_iff_not_imp_left]

/-- The unstable positions that take part in an exchange are the exposed ones. -/
theorem mem_carried_iff_exposed (fits : positions.length = connectors.length + 1)
    (unstable : isUnstable positions p = true) :
    p ∈ exchanged (carried positions connectors) ↔ Exposed positions connectors p := by
  rw [mem_exchanged, Exposed, and_iff_right unstable]
  constructor
  · rintro ⟨e, he, one⟩
    obtain ⟨found, steady⟩ := mem_carried.mp he
    have dynamic := dynamic_of_mem_exchanges found
    have steady := not_strays_iff.mp steady
    rcases one with rfl | rfl
    · left
      have first : e.1 = 0 := steady.resolve_right (by simp [unstable])
      exact ⟨first, first ▸ dynamic⟩
    · right
      have forward := (carried_ascending positions connectors).forward e he
      have inside := exchanges_inside fits found
      obtain ⟨_, _, leads⟩ := of_mem_exchanges found
      have last : ¬e.2 < connectors.length := by
        intro within
        have stable := landed_passOver fits e.1 (by omega) (by omega)
        rw [← leads, unstable] at stable
        cases stable
      refine ⟨by omega, e.1, forward, dynamic, steady, fun k before behind => ?_⟩
      exact (passOver_between behind (by omega)).1
  · rintro (⟨rfl, dynamic⟩ | ⟨last, q, before, dynamic, steady, between⟩)
    · have found := @mem_exchanges_of_dynamic positions connectors 0 0 (Nat.le_refl 0) (Or.inl rfl)
        dynamic
      exact ⟨_, mem_carried.mpr ⟨found, not_strays_iff.mpr (Or.inl rfl)⟩, Or.inl rfl⟩
    · have visited : 0 = q ∨ isUnstable positions q = false := steady.imp_left Eq.symm
      have found := mem_exchanges_of_dynamic (Nat.zero_le q) visited dynamic
      refine ⟨_, mem_carried.mpr ⟨found, not_strays_iff.mpr steady⟩, Or.inr ?_⟩
      exact (passOver_last before last between).symm

theorem count_carried (fits : positions.length = connectors.length + 1)
    (unstable : isUnstable positions p = true) :
    (exchanged (carried positions connectors)).count p =
      if Exposed positions connectors p then 1 else 0 := by
  have ascending := carried_ascending positions connectors
  by_cases exposed : Exposed positions connectors p
  · have among := (mem_carried_iff_exposed fits unstable).mpr exposed
    have some := List.count_pos_iff.mpr among
    have starts := List.nodup_iff_count_le_one.mp ascending.starts_nodup p
    have ends := List.nodup_iff_count_le_one.mp ascending.ends_nodup p
    have apart : p ∉ (carried positions connectors).map Prod.fst ∨
        p ∉ (carried positions connectors).map Prod.snd := by
      rcases exposed.2 with ⟨rfl, _⟩ | ⟨last, _⟩
      · right
        intro landing
        obtain ⟨e, he, first⟩ := List.mem_map.mp landing
        have := ascending.forward e he
        omega
      · left
        intro start
        obtain ⟨e, he, rfl⟩ := List.mem_map.mp start
        have := (of_mem_exchanges (mem_carried.mp he).1).2.1
        omega
    rw [count_exchanged] at some ⊢
    rw [if_pos exposed]
    rcases apart with never | never
    · rw [List.count_eq_zero_of_not_mem never] at some ⊢
      omega
    · rw [List.count_eq_zero_of_not_mem never] at some ⊢
      omega
  · rw [if_neg exposed]
    exact List.count_eq_zero_of_not_mem (mt (mem_carried_iff_exposed fits unstable).mp exposed)

theorem Exposed.end_of_path (exposed : Exposed positions connectors p) :
    p = 0 ∨ p + 1 = positions.length :=
  exposed.2.imp And.left And.left

end Walk

section Made

variable {particles : List Particle} {positions : List PositionOffer}
  {connectors : List Connector} {metropolis : Bool} {pairs : List StatePair} {rule : Rule} {p : Nat}

theorem Made.departs (made : Made particles positions connectors metropolis pairs rule) :
    Departs positions pairs rule := by
  refine ⟨fun p unstable => ?_, made.transition_length, fun p pair own => ?_⟩
  · obtain ⟨position, hposition, flag⟩ := isUnstable_iff.mp unstable
    obtain ⟨pair, own, _⟩ := aligned_right made.offered hposition
    obtain ⟨x, hx, _⟩ := aligned_right made.started own
    have row := List.mem_of_getElem? (getElem?_zip_of hx (getElem?_zip_of own hposition))
    have reaches := made.reaches
    simp only [canReachEnd, Bool.and_eq_true, List.all_eq_true, List.mem_filter, beq_iff_eq,
      Prod.forall] at reaches
    rw [hx, reaches.1 x pair position ⟨row, flag⟩]
  · obtain ⟨position, hposition, _⟩ := aligned_left made.offered own
    rw [made.transition, inFlight, List.getElem?_map, getElem?_zip_of hposition own]
    simp [isUnstable, hposition]

theorem Made.final_unstable (made : Made particles positions connectors metropolis pairs rule)
    (fits : positions.length = connectors.length + 1)
    (built : ∀ position ∈ positions, position.Built) (unstable : isUnstable positions p = true)
    {pair : StatePair} (own : pairs[p]? = some pair) :
    rule.final[p]? =
      some (if Exposed positions connectors p then pair.donor else voidByte) := by
  obtain ⟨position, hposition, flag⟩ := isUnstable_iff.mp unstable
  obtain ⟨_, hposition', offered⟩ := aligned_left made.offered own
  obtain rfl := Option.some.inj (hposition.symm.trans hposition')
  have acceptor := (built position (List.mem_of_getElem? hposition)).acceptor flag offered
  rw [(made.toggled fits).value p pair voidByte own (made.departs.start p unstable),
    count_carried fits unstable]
  split
  · simp [flipped, acceptor]
  · rfl

end Made

end Generate

section PathRules

variable {particles : List Particle} {positions : List PositionOffer}
  {connectors : List Connector} {metropolis : Bool} {rule : Rule}

open Generate in
/-- Every rule departs from empty unstable positions, and in flight they alone are occupied, by
their donors. Afterwards they are empty again exactly when no exposed one has a donor other than
nothing: in an exposed position the donor has stayed. -/
theorem Rule.unstable_empty_iff (particles : List Particle) (positions : List PositionOffer)
    (connectors : List Connector) (metropolis : Bool) (rule : Rule)
    (built : ∀ position ∈ positions, position.Built)
    (h : rule ∈ pathRules particles positions connectors metropolis) :
    (∃ pairs, Made particles positions connectors metropolis pairs rule) ∧
      ∀ pairs, Made particles positions connectors metropolis pairs rule →
        Departs positions pairs rule ∧
          (∀ p pair, isUnstable positions p = true → pairs[p]? = some pair → rule.final[p]? =
            some (if Exposed positions connectors p then pair.donor else voidByte)) ∧
          ((∀ p, isUnstable positions p = true → rule.final[p]? = some voidByte) ↔
            ∀ p pair, Exposed positions connectors p → pairs[p]? = some pair →
              pair.donor = voidByte) := by
  obtain ⟨fits, chosen⟩ := made_of_mem_pathRules h
  refine ⟨chosen, fun pairs made => ⟨made.departs, fun p pair unstable own =>
    made.final_unstable fits built unstable own, ?_⟩⟩
  constructor
  · intro empty p pair exposed own
    have final := made.final_unstable fits built exposed.1 own
    rw [empty p exposed.1, if_pos exposed, Option.some.injEq] at final
    exact final.symm
  · intro nothing p unstable
    obtain ⟨position, hposition, _⟩ := isUnstable_iff.mp unstable
    obtain ⟨pair, own, _⟩ := aligned_right made.offered hposition
    rw [made.final_unstable fits built unstable own]
    split
    · next exposed => rw [nothing p pair exposed own]
    · rfl

open ReferenceData Generate in
theorem between_empty :
    (∃ rule ∈ pathRules chain.particles (between ⟨1, 2⟩) [.dynamic, .dynamic] false,
      rule.start = [1, 0, 2] ∧
      ∀ p, isUnstable (between ⟨1, 2⟩) p = true → rule.final[p]? = some voidByte) ∧
    ∃ rule ∈ pathRules chain.particles [.of [⟨1, 0⟩] false, .of [⟨1, 0⟩] true] [.dynamic] false,
      rule.start = [1, 0] ∧
      ¬∀ p, isUnstable [.of [⟨1, 0⟩] false, .of [⟨1, 0⟩] true] p = true →
        rule.final[p]? = some voidByte := by
  have found : (⟨[1, 0, 2], [0, 1, 0], [2, 0, 1], [0, 2], ⟨18⟩⟩ : Rule) ∈
        pathRules chain.particles (between ⟨1, 2⟩) [.dynamic, .dynamic] false ∧
      (⟨[1, 0], [0, 1], [0, 1], [0, 1], ⟨1⟩⟩ : Rule) ∈
        pathRules chain.particles [.of [⟨1, 0⟩] false, .of [⟨1, 0⟩] true] [.dynamic] false := by
    decide +kernel
  obtain ⟨jump, landing⟩ := found
  refine ⟨⟨_, jump, rfl, ?_⟩, _, landing, rfl, ?_⟩
  · obtain ⟨⟨pairs, made⟩, each⟩ := Rule.unstable_empty_iff _ _ _ _ _
      (by simp [between]) jump
    refine (each pairs made).2.2.mpr fun p pair exposed _ => ?_
    rcases exposed.end_of_path with rfl | last
    · exact absurd exposed (by decide)
    · obtain rfl : p = 2 := Nat.succ.inj last
      exact absurd exposed (by decide)
  · obtain ⟨⟨pairs, made⟩, each⟩ := Rule.unstable_empty_iff _ _ _ _ _
      (by simp) landing
    intro empty
    have chosen : pairs = [⟨1, 0⟩, ⟨1, 0⟩] := by
      simpa [PositionOffer.of, voidByte, voidIndex, List.forall₂_cons_right_iff] using made.offered
    have nothing := (each pairs made).2.2.mp empty 1 ⟨1, 0⟩ (by decide) (by rw [chosen]; rfl)
    cases nothing

end PathRules

end CrystalModel
