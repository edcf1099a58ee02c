import CrystalModel.Proofs.Rule.Trackers
import Mathlib.Algebra.Group.Nat.Even

/-! # Rules seen from the other end of the path

The inversion of a rule makes the mirrored exchanges in the opposite order. Mirroring conjugates
every exchange with the reversal of the path, so the trackers of the inversion go back the way they
came: what a rule moves, its inversion restores on the reversed path. -/
namespace CrystalModel

/-- All states cover the path, and the movement lists pairs of its positions. -/
structure Rule.Fits (rule : Rule) : Prop where
  short : rule.length ≤ pathLimit
  transition : rule.transition.length = rule.length
  final : rule.final.length = rule.length
  paired : Even rule.movement.length
  inside : ∀ place ∈ rule.movement, place < rule.length

section Conjugation

open Equiv

variable {n p : Nat} {exchanges : List (Nat × Nat)}

theorem origin_concat (exchanges : List (Nat × Nat)) (e : Nat × Nat) :
    origin (exchanges ++ [e]) = origin exchanges * swap e.1 e.2 := by
  rw [origin, List.map_append, List.prod_append, List.map_singleton, List.prod_singleton, origin]

theorem turnedExchanges_cons (n : Nat) (e : Nat × Nat) (rest : List (Nat × Nat)) :
    turnedExchanges n (e :: rest) = turnedExchanges n rest ++ [(n - 1 - e.2, n - 1 - e.1)] := by
  rw [turnedExchanges, List.reverse_cons, List.map_append, turnedExchanges, List.map_singleton]

theorem swap_mirrored {i j : Nat} (hi : i < n) (hj : j < n) (hp : p < n) :
    swap (n - 1 - j) (n - 1 - i) (n - 1 - swap i j p) = n - 1 - p := by
  simp only [swap_apply_def]
  split_ifs <;> omega

theorem OnPath.turned (path : OnPath n exchanges) : OnPath n (turnedExchanges n exchanges) := by
  refine ⟨fun e he => ?_, path.short⟩
  obtain ⟨f, hf, rfl⟩ := List.mem_map.mp he
  have := path.inside f (List.mem_reverse.mp hf)
  simp only
  omega

theorem OnPath.tail {e : Nat × Nat} (path : OnPath n (e :: exchanges)) : OnPath n exchanges :=
  ⟨fun f hf => path.inside f (List.mem_cons_of_mem e hf), path.short⟩

/-- Along the exchanges and then along the turned ones every position is its own mirror image. -/
theorem OnPath.origin_turned (path : OnPath n exchanges) (hp : p < n) :
    origin (turnedExchanges n exchanges) (n - 1 - origin exchanges p) = n - 1 - p := by
  induction exchanges with
  | nil => rfl
  | cons e rest ih =>
    obtain ⟨first, second⟩ := path.inside e List.mem_cons_self
    have inner : origin rest p < n := path.tail.origin_inside hp
    -- the mirror of the outermost exchange is innermost among the turned ones, where the two cancel
    rw [turnedExchanges_cons, origin_concat, origin_cons, Perm.mul_apply, Perm.mul_apply,
      swap_mirrored first second inner]
    exact ih path.tail

end Conjugation

namespace RunsAlong

variable {n p : Nat} {exchanges : List (Nat × Nat)} {rule : Rule}

theorem getElem?_trackerBytes (runs : RunsAlong n exchanges rule) (path : OnPath n exchanges)
    (hp : p < n) : rule.trackerBytes[p]? = some (UInt8.ofNat (origin exchanges p)) := by
  have first : (rule.trackerBytes.take n)[p]? = rule.trackerBytes[p]? := by
    rw [List.getElem?_take, if_pos hp]
  rw [← first, runs.trackerBytes_eq path, List.getElem?_map, List.getElem?_range hp]
  rfl

end RunsAlong

theorem exchanged_pairUp {places : List Nat} (paired : Even places.length) :
    Generate.exchanged (pairUp places) = places := by
  fun_induction pairUp places with
  | case1 a b rest ih =>
    have others : Even rest.length := by simpa [Nat.even_add_one] using paired
    change a :: b :: Generate.exchanged (pairUp rest) = _
    rw [ih others]
  | case2 places single =>
    cases places with
    | nil => rfl
    | cons a rest =>
      cases rest with
      | nil => simp at paired
      | cons b rest => exact absurd rfl (single a b rest)

namespace Rule

variable {rule : Rule}

namespace Fits

theorem runsAlong (fits : rule.Fits) : RunsAlong rule.length rule.exchanges rule :=
  ⟨rfl, fits.final, (exchanged_pairUp fits.paired).symm⟩

theorem onPath (fits : rule.Fits) : OnPath rule.length rule.exchanges := by
  refine ⟨fun e he => ?_, fits.short⟩
  have listed {place : Nat} (h : place = e.1 ∨ place = e.2) : place < rule.length := by
    refine fits.inside place ?_
    rw [← exchanged_pairUp fits.paired]
    exact Generate.mem_exchanged.mpr ⟨e, he, h⟩
  exact ⟨listed (Or.inl rfl), listed (Or.inr rfl)⟩

theorem inverted_length (fits : rule.Fits) : rule.inverted.length = rule.length := by
  rw [length, inverted, List.length_reverse, fits.final]

theorem inverted_inverted (fits : rule.Fits) : rule.inverted.inverted = rule := by
  have mirrored : rule.movement.map ((rule.length - 1 - ·) ∘ (rule.length - 1 - ·)) =
      rule.movement := by
    refine (List.map_congr_left fun place hplace => ?_).trans (List.map_id _)
    have := fits.inside place hplace
    simp only [Function.comp_apply, id_eq]
    omega
  obtain ⟨start, transition, final, movement, flags⟩ := rule
  rw [Rule.inverted, fits.inverted_length]
  simp only [Rule.inverted, List.reverse_reverse, List.map_reverse, List.map_map]
  rw [mirrored]

end Fits

/-- Inverting is an involution, and inverts the order of the trackers: both orders are permutations,
and the second one is the inverse of the first, seen from the other end of the path. -/
theorem inverted_inverts_order (rule : Rule) (fits : rule.Fits) :
    rule.inverted.inverted = rule ∧
      ((rule.trackerBytes.take rule.length).map (·.toNat)).Perm (List.range rule.length) ∧
      ∀ i < rule.length, ∃ origin back, rule.trackerBytes[i]? = some origin ∧
        rule.inverted.trackerBytes[rule.length - 1 - origin.toNat]? = some back ∧
        back.toNat = rule.length - 1 - i := by
  have runs := fits.runsAlong
  have path := fits.onPath
  refine ⟨fits.inverted_inverted, runs.order_perm path, fun i inside => ?_⟩
  have before := path.origin_inside inside
  have mirror := path.origin_turned inside
  refine ⟨_, _, runs.getElem?_trackerBytes path inside,
    runs.inverted.getElem?_trackerBytes path.turned ?_, ?_⟩
  · rw [path.byte_eq inside]
    omega
  · rw [path.byte_eq inside, path.turned.byte_eq (by omega), mirror]

theorem relay_inverted :
    let relay : Rule :=
      ⟨[2, 1, 1, 1], [0, 0, 0, 0], [1, 1, 2, 1], [0, 1, 1, 2], .union .migration .vehicle⟩
    relay.Fits ∧ relay.inverted.movement = [1, 2, 2, 3] ∧ relay.inverted.inverted = relay ∧
      ((relay.trackerBytes.take 4).map (·.toNat)).Perm (List.range 4) ∧
      ∀ i < 4, ∃ origin back, relay.trackerBytes[i]? = some origin ∧
        relay.inverted.trackerBytes[4 - 1 - origin.toNat]? = some back ∧
        back.toNat = 4 - 1 - i := by
  intro relay
  have fits : relay.Fits := ⟨by decide, rfl, rfl, by decide, by decide⟩
  exact ⟨fits, rfl, inverted_inverts_order relay fits⟩

end Rule

end CrystalModel
