import CrystalModel.Proofs.Rule.Exchanges
import Mathlib.GroupTheory.Perm.Support

/-! # Trackers along a path

The exchanges of a rule, one after the other, permute the trackers of its path. A rule and the rule
that undoes it list the same exchanges in the same order, so together they restore the trackers
exactly when the exchanges have no position in common: those of a chain do not commute. -/
namespace CrystalModel

/-- Moves the trackers of a path: byte `i` of the order is the position whose tracker ends on
position `i`. -/
def moveTrackers {α : Type} (order : List UInt8) (trackers : List α) : List α :=
  (order.take trackers.length).filterMap fun origin => trackers[origin.toNat]?

namespace Rule

/-- One rule after the other leaves every tracker on its own position. -/
def RestoredBy (rule back : Rule) : Prop :=
  ∀ trackers : List Nat, trackers.length = rule.length →
    moveTrackers back.trackerBytes (moveTrackers rule.trackerBytes trackers) = trackers

/-- No position takes part in two exchanges. -/
def Separate (rule : Rule) : Prop := rule.exchanges.Pairwise Clear

instance (rule : Rule) : Decidable rule.Separate :=
  inferInstanceAs (Decidable (List.Pairwise _ _))

end Rule

section Permutation

open Equiv

/-- Where the particle that ends on a position comes from. -/
def origin (exchanges : List (Nat × Nat)) : Perm Nat :=
  (exchanges.map fun e => swap e.1 e.2).prod

theorem origin_cons (e : Nat × Nat) (rest : List (Nat × Nat)) :
    origin (e :: rest) = swap e.1 e.2 * origin rest := by
  rw [origin, List.map_cons, List.prod_cons, origin]

theorem getElem?_swapped {xs : List Nat} {exchanges : List (Nat × Nat)}
    (inside : ∀ e ∈ exchanges, e.1 < xs.length ∧ e.2 < xs.length) (p : Nat) :
    (exchanges.foldl (fun order (i, j) => swapPlaces order i j) xs)[p]? =
      xs[origin exchanges p]? := by
  induction exchanges generalizing xs with
  | nil => rfl
  | cons e rest ih =>
    obtain ⟨⟨start, landing⟩, others⟩ := List.forall_mem_cons.mp inside
    rw [List.foldl_cons, ih, getElem?_swapPlaces start landing, origin_cons, Perm.mul_apply]
    intro f hf
    rw [swapPlaces_length]
    exact others f hf

theorem swapped_perm {xs : List Nat} {exchanges : List (Nat × Nat)}
    (inside : ∀ e ∈ exchanges, e.1 < xs.length ∧ e.2 < xs.length) :
    (exchanges.foldl (fun order (i, j) => swapPlaces order i j) xs).Perm xs := by
  induction exchanges generalizing xs with
  | nil => exact .refl xs
  | cons e rest ih =>
    obtain ⟨⟨start, landing⟩, others⟩ := List.forall_mem_cons.mp inside
    refine (ih ?_).trans (swapPlaces_perm start landing)
    intro f hf
    rw [swapPlaces_length]
    exact others f hf

theorem origin_elsewhere {exchanges : List (Nat × Nat)} {p : Nat}
    (free : ∀ e ∈ exchanges, p ≠ e.1 ∧ p ≠ e.2) : origin exchanges p = p := by
  induction exchanges with
  | nil => rfl
  | cons e rest ih =>
    obtain ⟨⟨start, landing⟩, others⟩ := List.forall_mem_cons.mp free
    rw [origin_cons, Perm.mul_apply, ih others, swap_apply_of_ne_of_ne start landing]

theorem origin_chain {i j k : Nat} {rest : List (Nat × Nat)} (forward : i < j) (further : j < k)
    (behind : ∀ e ∈ rest, k ≤ e.1 ∧ e.1 < e.2) :
    origin ((i, j) :: (j, k) :: rest) (origin ((i, j) :: (j, k) :: rest) j) ≠ j := by
  have near {p : Nat} (before : p < k) : origin rest p = p := by
    refine origin_elsewhere fun e he => ?_
    have := behind e he
    omega
  have once : origin ((i, j) :: (j, k) :: rest) j = k := by
    rw [origin_cons, origin_cons, Perm.mul_apply, Perm.mul_apply, near further, swap_apply_left,
      swap_apply_of_ne_of_ne (by omega) (by omega)]
  rw [once, origin_cons, origin_cons, Perm.mul_apply, Perm.mul_apply]
  intro back
  have second : swap j k (origin rest k) = i := by
    rw [← swap_apply_right i j] at back
    exact (swap i j).injective (by simpa using back)
  have first : origin rest k = i := by
    rw [← swap_apply_of_ne_of_ne (show i ≠ j by omega) (show i ≠ k by omega)] at second
    exact (swap j k).injective second
  have same : k = i := (origin rest).injective (first.trans (near (by omega)).symm)
  omega

theorem origin_commute {e : Nat × Nat} {rest : List (Nat × Nat)} (forward : e.1 ≠ e.2)
    (others : ∀ f ∈ rest, f.1 ≠ f.2) (clear : ∀ f ∈ rest, Clear e f) :
    Commute (swap e.1 e.2) (origin rest) := by
  refine Perm.Disjoint.commute (Perm.disjoint_prod_right _ ?_)
  intro g hg
  obtain ⟨f, hf, rfl⟩ := List.mem_map.mp hg
  obtain ⟨a, b, c, d⟩ := clear f hf
  refine Perm.disjoint_swap_swap ?_
  simp [forward, others f hf, a, b, c, d]

theorem origin_not_involutive {e : Nat × Nat} {rest : List (Nat × Nat)}
    (ascending : Ascending (e :: rest)) (meet : ∃ f ∈ rest, f.1 = e.2) :
    origin (e :: rest) * origin (e :: rest) ≠ 1 := by
  obtain ⟨forward, others⟩ := List.forall_mem_cons.mp ascending.forward
  obtain ⟨behind, ordered⟩ := List.pairwise_cons.mp ascending.ordered
  obtain ⟨f, hf, start⟩ := meet
  cases rest with
  | nil => cases hf
  | cons next rest =>
    obtain ⟨further, tail⟩ := List.forall_mem_cons.mp others
    obtain ⟨later, _⟩ := List.pairwise_cons.mp ordered
    have goesOn : next.1 = e.2 := by
      rcases List.mem_cons.mp hf with rfl | hf
      · exact start
      · have := behind next List.mem_cons_self
        have := later f hf
        omega
    obtain ⟨j, k⟩ := next
    obtain rfl : j = e.2 := goesOn
    intro involutive
    have restored : origin (e :: (e.2, k) :: rest) (origin (e :: (e.2, k) :: rest) e.2) = e.2 := by
      rw [← Perm.mul_apply, involutive, Perm.one_apply]
    exact origin_chain forward (by omega) (fun g hg => ⟨later g hg, tail g hg⟩) restored

/-- Repeating the exchanges undoes them exactly when no two of them meet. -/
theorem origin_involutive_iff {exchanges : List (Nat × Nat)} (ascending : Ascending exchanges) :
    origin exchanges * origin exchanges = 1 ↔ exchanges.Pairwise Clear := by
  induction exchanges with
  | nil => simp [origin]
  | cons e rest ih =>
    obtain ⟨forward, others⟩ := List.forall_mem_cons.mp ascending.forward
    obtain ⟨behind, ordered⟩ := List.pairwise_cons.mp ascending.ordered
    by_cases meet : ∃ f ∈ rest, f.1 = e.2
    · refine iff_of_false (origin_not_involutive ascending meet) ?_
      intro apart
      obtain ⟨f, hf, start⟩ := meet
      exact ((List.pairwise_cons.mp apart).1 f hf).2.2.1 start.symm
    · have clear : ∀ f ∈ rest, Clear e f := by
        intro f hf
        have := behind f hf
        have := others f hf
        have apart : e.2 ≠ f.1 := fun start => meet ⟨f, hf, start.symm⟩
        exact ⟨by omega, by omega, apart, by omega⟩
      have commute := origin_commute (Nat.ne_of_lt forward)
        (fun f hf => Nat.ne_of_lt (others f hf)) clear
      have square : origin (e :: rest) * origin (e :: rest) = origin rest * origin rest := by
        rw [origin_cons, commute.symm.mul_mul_mul_comm, swap_mul_self, one_mul]
      rw [square, ih ⟨others, ordered⟩, List.pairwise_cons, and_iff_right clear]

end Permutation

structure OnPath (n : Nat) (exchanges : List (Nat × Nat)) : Prop where
  inside : ∀ e ∈ exchanges, e.1 < n ∧ e.2 < n
  short : n ≤ pathLimit

namespace OnPath

variable {n p : Nat} {exchanges : List (Nat × Nat)}

theorem origin_outside (path : OnPath n exchanges) (outside : n ≤ p) : origin exchanges p = p := by
  refine origin_elsewhere fun e he => ?_
  have := path.inside e he
  omega

theorem origin_inside (path : OnPath n exchanges) (inside : p < n) : origin exchanges p < n := by
  by_contra outside
  have fixed := (origin exchanges).injective (path.origin_outside (Nat.le_of_not_lt outside))
  omega

theorem byte_eq (path : OnPath n exchanges) (inside : p < n) :
    (UInt8.ofNat (origin exchanges p)).toNat = origin exchanges p := by
  have := path.origin_inside inside
  have := path.short
  unfold pathLimit at this
  rw [UInt8.toNat_ofNat']
  omega

theorem places_inside (path : OnPath n exchanges) :
    ∀ e ∈ exchanges, e.1 < (List.range n).length ∧ e.2 < (List.range n).length := by
  rw [List.length_range]
  exact path.inside

end OnPath

/-- The exchanges of a path of `n` positions, in the order of the path. -/
structure Route (n : Nat) (exchanges : List (Nat × Nat)) : Prop where
  ascending : Ascending exchanges
  inside : ∀ e ∈ exchanges, e.2 < n
  short : n ≤ pathLimit

theorem Route.onPath {n : Nat} {exchanges : List (Nat × Nat)} (route : Route n exchanges) :
    OnPath n exchanges := by
  refine ⟨fun e he => ?_, route.short⟩
  have := route.ascending.forward e he
  have := route.inside e he
  omega

def turnedExchanges (n : Nat) (exchanges : List (Nat × Nat)) : List (Nat × Nat) :=
  exchanges.reverse.map fun e => (n - 1 - e.2, n - 1 - e.1)

theorem Route.turned {n : Nat} {exchanges : List (Nat × Nat)} (route : Route n exchanges) :
    Route n (turnedExchanges n exchanges) := by
  have turned {e : Nat × Nat} (h : e ∈ turnedExchanges n exchanges) :
      ∃ f ∈ exchanges, e = (n - 1 - f.2, n - 1 - f.1) := by
    obtain ⟨f, hf, rfl⟩ := List.mem_map.mp h
    exact ⟨f, List.mem_reverse.mp hf, rfl⟩
  refine ⟨⟨?_, ?_⟩, ?_, route.short⟩
  · intro e he
    obtain ⟨f, hf, rfl⟩ := turned he
    have := route.ascending.forward f hf
    have := route.inside f hf
    simp only
    omega
  · rw [turnedExchanges, List.pairwise_map, List.pairwise_reverse]
    refine route.ascending.ordered.imp ?_
    intro e f behind
    simp only
    omega
  · intro e he
    obtain ⟨f, hf, rfl⟩ := turned he
    have := route.ascending.forward f hf
    have := route.inside f hf
    simp only
    omega

/-- A rule of a path of `n` positions that makes the exchanges in order. -/
structure RunsAlong (n : Nat) (exchanges : List (Nat × Nat)) (rule : Rule) : Prop where
  start : rule.start.length = n
  final : rule.final.length = n
  movement : rule.movement = Generate.exchanged exchanges

namespace RunsAlong

variable {n : Nat} {exchanges : List (Nat × Nat)} {rule back : Rule}

theorem exchanges_eq (runs : RunsAlong n exchanges rule) : rule.exchanges = exchanges := by
  rw [Rule.exchanges, runs.movement, Generate.exchanged, pairUp_flatMap]

theorem swapped (runs : RunsAlong n exchanges rule) : RunsAlong n exchanges rule.swapped :=
  ⟨runs.final, runs.start, runs.movement⟩

theorem inverted (runs : RunsAlong n exchanges rule) :
    RunsAlong n (turnedExchanges n exchanges) rule.inverted := by
  have length : rule.length = n := runs.start
  refine ⟨?_, ?_, ?_⟩
  · rw [Rule.inverted, List.length_reverse, runs.final]
  · rw [Rule.inverted, List.length_reverse, runs.start]
  · rw [Rule.inverted, runs.movement, length, Generate.exchanged, Generate.exchanged,
      turnedExchanges, List.reverse_flatMap, List.map_flatMap, List.flatMap_map]
    rfl

theorem origins_eq (runs : RunsAlong n exchanges rule) (path : OnPath n exchanges) :
    rule.origins = (List.range n).map (origin exchanges) := by
  have length : rule.length = n := runs.start
  refine List.ext_getElem? fun p => ?_
  rw [Rule.origins, runs.exchanges_eq, length, getElem?_swapped path.places_inside,
    List.getElem?_map]
  by_cases inside : p < n
  · rw [List.getElem?_range (path.origin_inside inside), List.getElem?_range inside]
    rfl
  · have outside : n ≤ p := Nat.le_of_not_lt inside
    rw [path.origin_outside outside,
      List.getElem?_eq_none (by rw [List.length_range]; exact outside)]
    rfl

theorem trackerBytes_eq (runs : RunsAlong n exchanges rule) (path : OnPath n exchanges) :
    rule.trackerBytes.take n = (List.range n).map fun p => UInt8.ofNat (origin exchanges p) := by
  have whole : rule.origins.take pathLimit = rule.origins := by
    refine List.take_of_length_le ?_
    rw [runs.origins_eq path, List.length_map, List.length_range]
    exact path.short
  rw [Rule.trackerBytes, whole, runs.origins_eq path, List.map_map]
  exact List.take_left' (by simp)

/-- The order of a rule lists every position of its path once. -/
theorem order_perm (runs : RunsAlong n exchanges rule) (path : OnPath n exchanges) :
    ((rule.trackerBytes.take n).map (·.toNat)).Perm (List.range n) := by
  have places : (rule.trackerBytes.take n).map (·.toNat) = rule.origins := by
    rw [runs.trackerBytes_eq path, runs.origins_eq path, List.map_map]
    refine List.map_congr_left fun p hp => ?_
    exact path.byte_eq (List.mem_range.mp hp)
  have length : rule.length = n := runs.start
  rw [places, Rule.origins, runs.exchanges_eq, length]
  exact swapped_perm path.places_inside

theorem trackerBytes_perm (runs : RunsAlong n exchanges rule) (route : Route n exchanges) :
    ((rule.trackerBytes.take n).map (·.toNat)).Perm (List.range n) :=
  runs.order_perm route.onPath

theorem moveTrackers_eq (runs : RunsAlong n exchanges rule) (path : OnPath n exchanges)
    {trackers : List Nat} (length : trackers.length = n) :
    moveTrackers rule.trackerBytes trackers =
      (List.range n).map fun p => trackers[origin exchanges p]?.getD 0 := by
  rw [moveTrackers, length, runs.trackerBytes_eq path, List.filterMap_map]
  have each : ∀ k q, (List.range n)[k]? = some q →
      trackers[(UInt8.ofNat (origin exchanges q)).toNat]? =
        some (trackers[origin exchanges k]?.getD 0) := by
    intro k q hq
    obtain ⟨within, rfl⟩ := List.getElem?_eq_some_iff.mp hq
    have inside : k < n := by simpa using within
    have held : origin exchanges k < trackers.length := by
      rw [length]
      exact path.origin_inside inside
    rw [List.getElem_range, path.byte_eq inside, List.getElem?_eq_getElem held, Option.getD_some]
  have listed := filterMap_eq_map_range each
  rw [List.length_range] at listed
  exact listed

theorem moveTrackers_getElem? (runs : RunsAlong n exchanges rule) (path : OnPath n exchanges)
    {trackers : List Nat} (length : trackers.length = n) (p : Nat) :
    (moveTrackers rule.trackerBytes trackers)[p]? = trackers[origin exchanges p]? := by
  rw [runs.moveTrackers_eq path length, List.getElem?_map]
  by_cases inside : p < n
  · have held : origin exchanges p < trackers.length := by
      rw [length]
      exact path.origin_inside inside
    rw [List.getElem?_range inside, Option.map_some, List.getElem?_eq_getElem held,
      Option.getD_some]
  · have outside : n ≤ p := Nat.le_of_not_lt inside
    rw [path.origin_outside outside,
      List.getElem?_eq_none (by rw [List.length_range]; exact outside),
      List.getElem?_eq_none (by omega)]
    rfl

theorem moveTrackers_length (runs : RunsAlong n exchanges rule) (path : OnPath n exchanges)
    {trackers : List Nat} (length : trackers.length = n) :
    (moveTrackers rule.trackerBytes trackers).length = n := by
  rw [runs.moveTrackers_eq path length, List.length_map, List.length_range]

/-- Two rules that make the same exchanges restore the trackers exactly when these do not meet. -/
theorem restoredBy_iff (runs : RunsAlong n exchanges rule) (again : RunsAlong n exchanges back)
    (route : Route n exchanges) : rule.RestoredBy back ↔ rule.Separate := by
  have length : rule.length = n := runs.start
  have path := route.onPath
  have twice {trackers : List Nat} (enough : trackers.length = n) (p : Nat) :
      (moveTrackers back.trackerBytes (moveTrackers rule.trackerBytes trackers))[p]? =
        trackers[origin exchanges (origin exchanges p)]? := by
    rw [again.moveTrackers_getElem? path (runs.moveTrackers_length path enough),
      runs.moveTrackers_getElem? path enough]
  rw [Rule.Separate, runs.exchanges_eq, ← origin_involutive_iff route.ascending]
  constructor
  · intro restored
    refine Equiv.ext fun p => ?_
    rw [Equiv.Perm.mul_apply, Equiv.Perm.one_apply]
    by_cases inside : p < n
    · have same := twice (List.length_range : (List.range n).length = n) p
      rw [restored _ (by rw [length, List.length_range]), List.getElem?_range inside,
        List.getElem?_range (path.origin_inside (path.origin_inside inside)),
        Option.some.injEq] at same
      exact same.symm
    · have fixed := path.origin_outside (Nat.le_of_not_lt inside)
      rw [fixed, fixed]
  · intro involutive trackers enough
    refine List.ext_getElem? fun p => ?_
    rw [twice (enough.trans length), ← Equiv.Perm.mul_apply, involutive, Equiv.Perm.one_apply]

end RunsAlong

theorem exists_route (particles : List Particle) (positions : List PositionOffer)
    (connectors : List Connector) (metropolis : Bool) :
    ∃ n exchanges, Route n exchanges ∧
      ∀ rule ∈ pathRules particles positions connectors metropolis, RunsAlong n exchanges rule := by
  by_cases unfit : positions.length ≠ connectors.length + 1 ∨ pathLimit < positions.length
  · refine ⟨0, [], ⟨⟨by simp, .nil⟩, by simp, Nat.zero_le _⟩, ?_⟩
    rw [pathRules, if_pos unfit]
    simp
  · have fits : positions.length = connectors.length + 1 := by omega
    refine ⟨positions.length, Generate.exchanges positions connectors 0,
      ⟨Generate.exchanges_ascending positions connectors 0,
        fun e => Generate.exchanges_inside fits, by omega⟩, ?_⟩
    intro rule h
    obtain ⟨_, pairs, made⟩ := made_of_mem_pathRules h
    refine ⟨made.length, ?_, made.movement⟩
    rw [(made.started.finish made.finished).length_eq, made.offered.length_eq]

end CrystalModel
