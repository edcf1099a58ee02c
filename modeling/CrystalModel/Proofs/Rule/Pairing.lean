import CrystalModel.Proofs.Places
import CrystalModel.Transition.Link

/-! # Rules and the rules that undo them

The rules of a path come as pairs of a rule and its backward form, and rules that undo themselves
stand alone. On such a list the search for the first later partner finds the very next rule. -/
namespace CrystalModel

namespace Rule

variable {a b : Rule}

theorem undoes_comm : a.Undoes b ↔ b.Undoes a := by
  constructor
  · rintro ⟨start, final⟩
    exact ⟨final.symm, start.symm⟩
  · rintro ⟨start, final⟩
    exact ⟨final.symm, start.symm⟩

theorem undoes_self : a.Undoes a ↔ a.start = a.final := by
  constructor
  · intro h
    exact h.1
  · intro h
    exact ⟨h, h.symm⟩

theorem swapped_undoes (a : Rule) : a.swapped.Undoes a := ⟨rfl, rfl⟩

theorem swapped_eq_iff : a.swapped = a ↔ a.start = a.final := by
  constructor
  · intro h
    exact congrArg Rule.final h
  · intro h
    cases a
    simp_all [swapped]

@[simp] theorem inverted_undoes : a.inverted.Undoes b.inverted ↔ a.Undoes b := by
  simp only [Undoes, inverted, List.reverse_inj]
  exact and_comm

@[simp] theorem inverted_still : a.inverted.start = a.inverted.final ↔ a.start = a.final := by
  simp only [inverted, List.reverse_inj]
  exact eq_comm

end Rule

/-- Rules that undo themselves alone, all others right before a rule that undoes them. -/
inductive Paired : List Rule → Prop where
  | nil : Paired []
  | alone {rule : Rule} {rest : List Rule} (still : rule.start = rule.final)
      (only : ∀ other ∈ rest, ¬other.Undoes rule) (behind : Paired rest) : Paired (rule :: rest)
  | both {rule back : Rule} {rest : List Rule} (moves : rule.start ≠ rule.final)
      (undoes : back.Undoes rule) (same : back.transition = rule.transition)
      (behind : Paired rest) : Paired (rule :: back :: rest)

theorem mem_bothWays {rules : List Rule} {x : Rule} :
    x ∈ bothWays rules ↔ ∃ rule ∈ rules, x = rule ∨ x = rule.swapped := by
  simp only [bothWays, List.mem_flatMap]
  refine exists_congr fun rule => and_congr_right fun _ => ?_
  by_cases still : rule.swapped = rule
  · rw [if_pos still, List.mem_singleton, still, or_self]
  · rw [if_neg still, List.mem_cons, List.mem_singleton]

theorem paired_bothWays {rules : List Rule} (apart : rules.Pairwise fun a b => ¬a.Undoes b) :
    Paired (bothWays rules) := by
  induction rules with
  | nil => exact .nil
  | cons rule rest ih =>
    obtain ⟨first, rest_apart⟩ := List.pairwise_cons.mp apart
    have behind := ih rest_apart
    by_cases still : rule.swapped = rule
    · have expand : bothWays (rule :: rest) = rule :: bothWays rest := by
        simp [bothWays, still]
      have same := Rule.swapped_eq_iff.mp still
      rw [expand]
      refine .alone same ?_ behind
      intro other hother undoes
      obtain ⟨x, hx, rfl | rfl⟩ := mem_bothWays.mp hother
      · exact first _ hx (Rule.undoes_comm.mp undoes)
      · -- a rule that keeps the state is undone by a rule exactly when its backward form undoes it
        exact first x hx ⟨same.trans undoes.1.symm, same.symm.trans undoes.2.symm⟩
    · have expand : bothWays (rule :: rest) = rule :: rule.swapped :: bothWays rest := by
        simp [bothWays, still]
      rw [expand]
      exact .both (mt Rule.swapped_eq_iff.mpr still) rule.swapped_undoes rfl behind

theorem Paired.inverted {rules : List Rule} (h : Paired rules) :
    Paired (rules.map (·.inverted)) := by
  induction h with
  | nil => exact .nil
  | alone still only _ ih =>
    refine .alone (Rule.inverted_still.mpr still) ?_ ih
    intro other hother undoes
    obtain ⟨x, hx, rfl⟩ := List.mem_map.mp hother
    exact only x hx (Rule.inverted_undoes.mp undoes)
  | both moves undoes same _ ih =>
    exact .both (mt Rule.inverted_still.mp moves) (Rule.inverted_undoes.mpr undoes)
      (congrArg List.reverse same) ih

namespace Generate

theorem addRule_apart {rules : List Rule} (rule : Rule)
    (apart : rules.Pairwise fun a b => ¬a.Undoes b) :
    (addRule rules rule).Pairwise fun a b => ¬a.Undoes b := by
  unfold addRule
  split
  · exact apart
  · next new =>
    refine pairwise_concat apart ?_
    intro known hknown undoes
    exact new (List.any_eq_true.mpr ⟨known, hknown, decide_eq_true (Or.inr undoes)⟩)

end Generate

theorem pathRules_apart (particles : List Particle) (positions : List PositionOffer)
    (connectors : List Connector) (metropolis : Bool) :
    (pathRules particles positions connectors metropolis).Pairwise fun a b => ¬a.Undoes b := by
  unfold pathRules
  split
  · exact .nil
  · refine List.foldlRecOn (motive := fun rules : List Rule =>
      rules.Pairwise fun a b => ¬a.Undoes b) _ _ .nil ?_
    intro rules apart rule _
    exact Generate.addRule_apart rule apart

theorem paired_exchangeRules (r : ReferenceData) (a : AbstractTransition)
    (states : List PositionOffer) (metropolis : Bool) :
    Paired (exchangeRules r a states metropolis) :=
  paired_bothWays (pathRules_apart r.particles states a.connectors metropolis)

/-- The links of the rules from place `n` on: to itself, or to each other. -/
inductive Linked : Nat → List Rule → List (Option Nat) → Prop where
  | nil {n : Nat} : Linked n [] []
  | alone {n : Nat} {rule : Rule} {rest : List Rule} {links : List (Option Nat)}
      (still : rule.start = rule.final) (behind : Linked (n + 1) rest links) :
      Linked n (rule :: rest) (some n :: links)
  | both {n : Nat} {rule back : Rule} {rest : List Rule} {links : List (Option Nat)}
      (moves : rule.start ≠ rule.final) (undoes : back.Undoes rule)
      (same : back.transition = rule.transition) (behind : Linked (n + 2) rest links) :
      Linked n (rule :: back :: rest) (some (n + 1) :: some n :: links)

namespace RuleLinks

variable {done rest : List Rule} {links : List (Option Nat)} {rule back : Rule}

theorem later_eq (aligned : links.length = done.length) (link : Option Nat)
    (others : List (Option Nat)) :
    ((done ++ rule :: rest).zip (links ++ link :: others)).zipIdx.drop (done.length + 1) =
      (rest.zip others).zipIdx (done.length + 1) := by
  have front : (done.zip links).zipIdx.length = done.length := by simp [aligned]
  rw [List.zip_append aligned.symm, List.zipIdx_append, List.drop_append,
    List.drop_eq_nil_of_le (by omega), front, Nat.add_sub_cancel_left]
  simp [aligned]

theorem link_alone (aligned : links.length = done.length) (still : rule.start = rule.final)
    (only : ∀ other ∈ rest, ¬other.Undoes rule) :
    link (done ++ rule :: rest) (links ++ none :: rest.map fun _ => none) done.length =
      links ++ some done.length :: rest.map fun _ => none := by
  have partner : partner? (done ++ rule :: rest) (links ++ none :: rest.map fun _ => none)
      done.length rule = some done.length := by
    simp only [partner?, later_eq aligned]
    rw [List.find?_eq_none.mpr ?later]
    case later =>
      rintro ⟨⟨other, link⟩, i⟩ hx found
      have among := (List.of_mem_zip (List.fst_mem_of_mem_zipIdx hx)).1
      simp only [Bool.and_eq_true, decide_eq_true_eq] at found
      exact only other among found.2
    exact if_pos (Rule.undoes_self.mpr still)
  have here : (done ++ rule :: rest)[done.length]? = some rule := by simp
  have free : (links ++ none :: rest.map fun _ => (none : Option Nat))[done.length]? =
      some none := by simp [← aligned]
  simp only [link, here, free, partner, List.set_set]
  rw [← aligned, List.set_append_right _ _ (Nat.le_refl _), Nat.sub_self, List.set_cons_zero]

theorem link_both (aligned : links.length = done.length) (undoes : back.Undoes rule) :
    link (done ++ rule :: back :: rest) (links ++ none :: none :: rest.map fun _ => none)
      done.length =
      links ++ some (done.length + 1) :: some done.length :: rest.map fun _ => none := by
  have partner : partner? (done ++ rule :: back :: rest)
      (links ++ none :: none :: rest.map fun _ => none) done.length rule =
      some (done.length + 1) := by
    simp [partner?, later_eq aligned, undoes]
  have here : (done ++ rule :: back :: rest)[done.length]? = some rule := by simp
  have free : (links ++ none :: none :: rest.map fun _ => (none : Option Nat))[done.length]? =
      some none := by simp [← aligned]
  simp only [link, here, free, partner]
  rw [← aligned, List.set_append_right _ _ (Nat.le_refl _), Nat.sub_self, List.set_cons_zero,
    List.set_append_right _ _ (Nat.le_succ _), Nat.succ_sub (Nat.le_refl _), Nat.sub_self]
  rfl

theorem link_linked {rules : List Rule} {i j : Nat} (h : links[i]? = some (some j)) :
    link rules links i = links := by
  unfold link
  split
  · next free =>
    rw [h] at free
    cases free
  · rfl

theorem linked_of_foldl (paired : Paired rest) (aligned : links.length = done.length) :
    ∃ tail, Linked done.length rest tail ∧
      (List.range' done.length rest.length).foldl (link (done ++ rest))
        (links ++ rest.map fun _ => none) = links ++ tail := by
  induction paired generalizing done links with
  | nil => exact ⟨[], .nil, by simp⟩
  | @alone rule rest still only _ ih =>
    have next : (links ++ [some done.length]).length = (done ++ [rule]).length := by
      simp [aligned]
    obtain ⟨tail, linked, pass⟩ := ih next
    rw [List.length_append, List.length_singleton] at linked pass
    refine ⟨some done.length :: tail, .alone still linked, ?_⟩
    rw [List.length_cons, List.range'_succ, List.foldl_cons, List.map_cons,
      link_alone aligned still only]
    simpa using pass
  | @both rule back rest moves undoes same _ ih =>
    have next : (links ++ [some (done.length + 1), some done.length]).length =
        (done ++ [rule, back]).length := by
      simp [aligned]
    obtain ⟨tail, linked, pass⟩ := ih next
    rw [List.length_append, List.length_cons, List.length_singleton] at linked pass
    refine ⟨some (done.length + 1) :: some done.length :: tail,
      .both moves undoes same linked, ?_⟩
    have kept : (links ++ some (done.length + 1) :: some done.length ::
        rest.map fun _ => (none : Option Nat))[done.length + 1]? = some (some done.length) := by
      simp [← aligned]
    rw [List.length_cons, List.length_cons, List.range'_succ, List.range'_succ, List.foldl_cons,
      List.foldl_cons, List.map_cons, List.map_cons, link_both aligned undoes, link_linked kept]
    simpa using pass

end RuleLinks

theorem linked_of_paired {rules : List Rule} (paired : Paired rules) :
    Linked 0 rules (ruleLinks rules) := by
  obtain ⟨tail, linked, pass⟩ := @RuleLinks.linked_of_foldl [] rules [] paired rfl
  rw [ruleLinks, List.range_eq_range']
  simp only [List.nil_append, List.length_nil] at pass linked
  rw [pass]
  exact linked

structure Partners (n : Nat) (rules : List Rule) (links : List (Option Nat)) (i j : Nat)
    (rule back : Rule) : Prop where
  found : rules[j]? = some back
  there : links[i]? = some (some (n + j))
  home : links[j]? = some (some (n + i))
  undoes : back.Undoes rule
  transition : back.transition = rule.transition
  itself : j = i ↔ rule.start = rule.final

theorem Partners.behind {n : Nat} {rules : List Rule} {links : List (Option Nat)} {i j : Nat}
    {rule back : Rule} (front : List Rule) (fronts : List (Option Nat))
    (h : Partners (n + front.length) rules links i j rule back)
    (aligned : fronts.length = front.length) : Partners n (front ++ rules) (fronts ++ links)
      (front.length + i) (front.length + j) rule back := by
  refine ⟨?_, ?_, ?_, h.undoes, h.transition, ?_⟩
  · rw [List.getElem?_append_right (Nat.le_add_right _ _), Nat.add_sub_cancel_left, h.found]
  · rw [← aligned, List.getElem?_append_right (Nat.le_add_right _ _), Nat.add_sub_cancel_left,
      h.there, aligned, Nat.add_assoc]
  · rw [← aligned, List.getElem?_append_right (Nat.le_add_right _ _), Nat.add_sub_cancel_left,
      h.home, aligned, Nat.add_assoc]
  · rw [Nat.add_left_cancel_iff, h.itself]

theorem Linked.partners {n : Nat} {rules : List Rule} {links : List (Option Nat)}
    (h : Linked n rules links) {i : Nat} {rule : Rule} (hi : rules[i]? = some rule) :
    ∃ j back, Partners n rules links i j rule back := by
  induction h generalizing i with
  | nil => cases hi
  | @alone n first rest links still _ ih =>
    cases i with
    | zero =>
      cases hi
      exact ⟨0, _, rfl, rfl, rfl, Rule.undoes_self.mpr still, rfl, by simp [still]⟩
    | succ i =>
      obtain ⟨j, back, partners⟩ := ih hi
      have moved := Partners.behind [first] [some n] partners rfl
      rw [List.length_singleton, Nat.add_comm 1 i, Nat.add_comm 1 j] at moved
      exact ⟨j + 1, back, moved⟩
  | @both n first second rest links moves undoes same _ ih =>
    match i, hi with
    | 0, hi =>
      cases hi
      exact ⟨1, second, rfl, rfl, rfl, undoes, same, by simp [moves]⟩
    | 1, hi =>
      cases hi
      refine ⟨0, first, rfl, rfl, rfl, Rule.undoes_comm.mp undoes, same.symm, ?_⟩
      have still : rule.start ≠ rule.final := by
        rw [undoes.1, undoes.2]
        exact moves.symm
      simp [still]
    | i + 2, hi =>
      obtain ⟨j, back, partners⟩ := ih hi
      have moved := Partners.behind [first, second] [some (n + 1), some n] partners rfl
      rw [List.length_cons, List.length_singleton, Nat.add_comm 2 i, Nat.add_comm 2 j] at moved
      exact ⟨j + 2, back, moved⟩

end CrystalModel
