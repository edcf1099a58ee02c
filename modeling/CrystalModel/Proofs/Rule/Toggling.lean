import CrystalModel.Proofs.Reference.Validation
import CrystalModel.Proofs.Rule.Exchanges
import Mathlib.Logic.Function.Iterate

/-! # Toggles along a path

The final state of a rule is its start state with every exchanged position toggled, once per
exchange that the way to the final state makes. The movement lists these exchanges and, where a
static connector leads to unstable positions, further ones that leave such a position. -/
namespace CrystalModel

namespace Generate

def toggleAt (pairs : List StatePair) (state : PathState) (i : Nat) : Option PathState := do
  let (particle, _) ← toggle (← pairs[i]?) (← state[i]?)
  return state.set i particle

/-- The pair has one state only, or there is no such position. -/
def StillAt (pairs : List StatePair) (i : Nat) : Prop :=
  ∀ pair ∈ pairs[i]?, pair.donor = pair.acceptor

instance (pairs : List StatePair) (i : Nat) : Decidable (StillAt pairs i) :=
  inferInstanceAs (Decidable (∀ pair ∈ pairs[i]?, _))

/-- The exchange leaves an unstable position within the path. -/
def Strays (positions : List PositionOffer) (e : Nat × Nat) : Prop :=
  0 < e.1 ∧ isUnstable positions e.1 = true

instance (positions : List PositionOffer) (e : Nat × Nat) : Decidable (Strays positions e) :=
  inferInstanceAs (Decidable (_ ∧ _))

def flipped (pair : StatePair) (particle : UInt8) : UInt8 :=
  if particle = pair.acceptor then pair.donor else pair.acceptor

section Flip

variable {pair : StatePair} {particle : UInt8}

theorem flipped_drawn (pair : StatePair) (particle : UInt8) :
    flipped pair particle = pair.donor ∨ flipped pair particle = pair.acceptor := by
  unfold flipped
  split
  · exact Or.inl rfl
  · exact Or.inr rfl

theorem toggle_eq (one : particle = pair.donor ∨ particle = pair.acceptor) :
    ∃ donor, toggle pair particle = some (flipped pair particle, donor) := by
  unfold toggle flipped
  by_cases acceptor : particle = pair.acceptor
  · rw [if_pos acceptor, if_pos acceptor]
    exact ⟨true, rfl⟩
  · rw [if_neg acceptor, if_neg acceptor, if_pos (one.resolve_right acceptor)]
    exact ⟨false, rfl⟩

theorem flipped_eq_iff (one : particle = pair.donor ∨ particle = pair.acceptor) :
    flipped pair particle = particle ↔ pair.donor = pair.acceptor := by
  unfold flipped
  by_cases acceptor : particle = pair.acceptor
  · rw [if_pos acceptor, acceptor]
  · rw [if_neg acceptor, one.resolve_right acceptor]
    exact eq_comm

theorem flipped_flipped (one : particle = pair.donor ∨ particle = pair.acceptor) :
    flipped pair (flipped pair particle) = particle := by
  by_cases still : pair.donor = pair.acceptor
  · have keep := (flipped_eq_iff one).mpr still
    rw [keep, keep]
  · rcases one with rfl | rfl
    · simp [flipped, still]
    · simp [flipped]

theorem iterate_flipped_drawn (one : particle = pair.donor ∨ particle = pair.acceptor) (n : Nat) :
    (flipped pair)^[n] particle = pair.donor ∨ (flipped pair)^[n] particle = pair.acceptor := by
  cases n with
  | zero => exact one
  | succ n =>
    rw [Function.iterate_succ_apply']
    exact flipped_drawn pair _

end Flip

variable {particles : List Particle} {positions : List PositionOffer}
  {connectors : List Connector} {metropolis : Bool} {pairs : List StatePair} {rule : Rule}
  {state final : PathState} {i j : Nat}

theorem toggleAt_some_iff : toggleAt pairs state i = some final ↔
    ∃ pair particle new donor, pairs[i]? = some pair ∧ state[i]? = some particle ∧
      toggle pair particle = some (new, donor) ∧ final = state.set i new := by
  simp only [toggleAt, Option.bind_eq_bind, Option.bind_eq_some_iff, Option.pure_def,
    Option.some.injEq, Prod.exists]
  constructor
  · rintro ⟨pair, hpair, particle, hparticle, new, donor, toggled, rfl⟩
    exact ⟨pair, particle, new, donor, hpair, hparticle, toggled, rfl⟩
  · rintro ⟨pair, particle, new, donor, hpair, hparticle, toggled, rfl⟩
    exact ⟨pair, hpair, particle, hparticle, new, donor, toggled, rfl⟩

theorem toggles_of_exchange (apart : i ≠ j) (h : exchange pairs state i j = some final) :
    [i, j].foldlM (toggleAt pairs) state = some final := by
  simp only [exchange, Option.bind_eq_bind, Option.bind_eq_some_iff,
    Option.ite_none_left_eq_some, Option.some.injEq] at h
  obtain ⟨own, hi, x, hx, ⟨first, donor⟩, toggled, own', hj, y, hy, ⟨second, donor'⟩, toggled', _,
    rfl⟩ := h
  have here : toggleAt pairs state i = some (state.set i first) :=
    toggleAt_some_iff.mpr ⟨own, x, first, donor, hi, hx, toggled, rfl⟩
  have there : toggleAt pairs (state.set i first) j = some ((state.set i first).set j second) := by
    refine toggleAt_some_iff.mpr ⟨own', y, second, donor', hj, ?_, toggled', rfl⟩
    rw [List.getElem?_set_ne apart, hy]
  simp [here, there]

/-- The state that toggles at the given places lead to: a position is toggled as often as it is
listed. -/
structure Toggled (pairs : List StatePair) (places : List Nat) (state final : PathState) :
    Prop where
  drawn : Drawn final pairs
  value : ∀ p pair particle, pairs[p]? = some pair → state[p]? = some particle →
    final[p]? = some ((flipped pair)^[places.count p] particle)

theorem toggled_of_toggles (drawn : Drawn state pairs) {places : List Nat}
    (inside : ∀ p ∈ places, p < pairs.length) :
    ∃ final, places.foldlM (toggleAt pairs) state = some final ∧
      Toggled pairs places state final := by
  induction places generalizing state with
  | nil => exact ⟨state, rfl, drawn, fun p pair particle _ hp => hp⟩
  | cons place rest ih =>
    obtain ⟨here, others⟩ := List.forall_mem_cons.mp inside
    have own : pairs[place]? = some pairs[place] := List.getElem?_eq_getElem here
    obtain ⟨x, hx, one⟩ := aligned_right drawn own
    obtain ⟨donor, toggled⟩ := toggle_eq one
    have step : toggleAt pairs state place = some (state.set place (flipped pairs[place] x)) :=
      toggleAt_some_iff.mpr ⟨_, x, _, donor, own, hx, toggled, rfl⟩
    obtain ⟨final, run, turned⟩ := ih (drawn.set own (flipped_drawn _ x)) others
    refine ⟨final, ?_, turned.drawn, ?_⟩
    · rw [List.foldlM_cons, step]
      exact run
    · intro p pair particle hpair hp
      by_cases same : place = p
      · subst same
        rw [own, Option.some.injEq] at hpair
        rw [hx, Option.some.injEq] at hp
        subst hpair hp
        have set : (state.set place (flipped pairs[place] x))[place]? =
            some (flipped pairs[place] x) := by
          rw [List.getElem?_set_self (List.getElem?_eq_some_iff.mp hx).1]
        rw [turned.value place _ _ own set, List.count_cons_self, Function.iterate_succ_apply]
      · have kept : (state.set place (flipped pairs[place] x))[p]? = some particle := by
          rw [List.getElem?_set_ne same, hp]
        rw [turned.value p _ _ hpair kept, List.count_cons_of_ne same]

theorem Toggled.eq_iff (drawn : Drawn state pairs) {places others : List Nat} {last : PathState}
    (first : Toggled pairs places state last) (second : Toggled pairs others state final) :
    last = final ↔ ∀ p pair particle, pairs[p]? = some pair → state[p]? = some particle →
      (flipped pair)^[places.count p] particle = (flipped pair)^[others.count p] particle := by
  constructor
  · rintro rfl p pair particle own hp
    have same :=
      (first.value p pair particle own hp).symm.trans (second.value p pair particle own hp)
    exact Option.some.inj same
  · intro agree
    refine List.ext_getElem? fun p => ?_
    cases own : pairs[p]? with
    | none =>
      have short := List.getElem?_eq_none_iff.mp own
      rw [List.getElem?_eq_none (by rw [first.drawn.length_eq]; exact short),
        List.getElem?_eq_none (by rw [second.drawn.length_eq]; exact short)]
    | some pair =>
      obtain ⟨particle, hp, _⟩ := aligned_right drawn own
      rw [first.value p pair particle own hp, second.value p pair particle own hp,
        agree p pair particle own hp]

theorem exchanges_nil (spent : connectors.length ≤ i) : exchanges positions connectors i = [] := by
  rw [exchanges, if_neg (by omega)]

/-- Between a static connector and the position it leads to, all exchanges stray. -/
theorem steady_between {j m : Nat} (before : j ≤ m)
    (passed : ∀ k, j ≤ k → k < m → 0 < k ∧ isUnstable positions k = true ∧
      passOver positions k + 1 = m) :
    (exchanges positions connectors j).filter (¬Strays positions ·) =
      (exchanges positions connectors m).filter (¬Strays positions ·) := by
  by_cases reached : j = m
  · rw [reached]
  have between : j < m := by omega
  obtain ⟨behind, unstable, leads⟩ := passed j (Nat.le_refl j) between
  by_cases inside : j < connectors.length
  · rw [exchanges.eq_def positions connectors j, if_pos inside]
    split
    · rw [leads, List.filter_cons_of_neg (by simp [Strays, behind, unstable])]
    · exact steady_between (j := j + 1) between fun k hk => passed k (by omega)
  · rw [exchanges_nil (by omega), exchanges_nil (by omega)]
termination_by m - j

/-- An exchange may start where the walk has arrived: at the first position or a stable one. -/
def Landed (positions : List PositionOffer) (connectors : List Connector) (i : Nat) : Prop :=
  i < connectors.length → 0 < i → isUnstable positions i = false

theorem landed_passOver (fits : positions.length = connectors.length + 1) (i : Nat) :
    Landed positions connectors (passOver positions i + 1) := by
  intro inside _
  rcases passOver_stops positions i with stable | last
  · exact stable
  · omega

theorem toggles_of_finish (fits : positions.length = connectors.length + 1)
    (landed : Landed positions connectors i)
    (h : finish positions connectors pairs state i = some final) :
    (exchanged ((exchanges positions connectors i).filter (¬Strays positions ·))).foldlM
      (toggleAt pairs) state = some final := by
  fun_induction finish positions connectors pairs state i with
  | case1 => cases h
  | case2 state i inside dynamic next exchange ih =>
    have ahead := le_passOver positions i
    have kept : ¬Strays positions (i, passOver positions i + 1) := by
      rintro ⟨behind, unstable⟩
      rw [landed inside behind] at unstable
      cases unstable
    have first := toggles_of_exchange (by omega) exchange
    have rest := ih (landed_passOver fits i) h
    rw [exchanges, if_pos inside, if_pos dynamic, List.filter_cons_of_pos (by simpa using kept)]
    change ([i, passOver positions i + 1] ++ exchanged _).foldlM (toggleAt pairs) state = some final
    rw [List.foldlM_append, first]
    exact rest
  | case3 state i inside static ih =>
    have ahead := le_passOver positions i
    have steady := @steady_between positions connectors (i + 1) (passOver positions i + 1)
      (by omega) fun k _ _ => by
        obtain ⟨unstable, same⟩ := @passOver_between positions i k (by omega) (by omega)
        exact ⟨by omega, unstable, by rw [same]⟩
    rw [exchanges, if_pos inside, if_neg static, steady]
    exact ih (landed_passOver fits i) h
  | case4 state i spent =>
    cases h
    rw [exchanges_nil (by omega)]
    rfl

def carried (positions : List PositionOffer) (connectors : List Connector) : List (Nat × Nat) :=
  (exchanges positions connectors 0).filter (¬Strays positions ·)

theorem mem_carried {e : Nat × Nat} : e ∈ carried positions connectors ↔
    e ∈ exchanges positions connectors 0 ∧ ¬Strays positions e := by
  simp [carried]

theorem carried_ascending (positions : List PositionOffer) (connectors : List Connector) :
    Ascending (carried positions connectors) :=
  (exchanges_ascending positions connectors 0).filter _

theorem exchanged_inside (fits : positions.length = connectors.length + 1) :
    ∀ p ∈ exchanged (exchanges positions connectors 0), p < positions.length := by
  intro p hp
  obtain ⟨e, he, one⟩ := mem_exchanged.mp hp
  have forward := (exchanges_ascending positions connectors 0).forward e he
  have inside := exchanges_inside fits he
  omega

theorem mem_exchanged_of_carried {p : Nat} (h : p ∈ exchanged (carried positions connectors)) :
    p ∈ exchanged (exchanges positions connectors 0) := by
  obtain ⟨e, he, one⟩ := mem_exchanged.mp h
  exact mem_exchanged.mpr ⟨e, (mem_carried.mp he).1, one⟩

/-- The final state, by the number of carried exchanges that a position takes part in. -/
theorem Made.toggled (made : Made particles positions connectors metropolis pairs rule)
    (fits : positions.length = connectors.length + 1) :
    Toggled pairs (exchanged (carried positions connectors)) rule.start rule.final := by
  have inside : ∀ p ∈ exchanged (carried positions connectors), p < pairs.length := by
    intro p hp
    rw [made.offered.length_eq]
    exact exchanged_inside fits p (mem_exchanged_of_carried hp)
  obtain ⟨final, run, toggled⟩ := toggled_of_toggles made.started inside
  have finished := toggles_of_finish fits (fun _ behind => absurd behind (Nat.lt_irrefl 0))
    made.finished
  change (exchanged (carried positions connectors)).foldlM _ _ = _ at finished
  rw [finished, Option.some.injEq] at run
  rw [run]
  exact toggled

def stray (positions : List PositionOffer) (connectors : List Connector) : List (Nat × Nat) :=
  (exchanges positions connectors 0).filter (Strays positions ·)

theorem mem_stray {e : Nat × Nat} : e ∈ stray positions connectors ↔
    e ∈ exchanges positions connectors 0 ∧ Strays positions e := by
  simp [stray]

theorem count_movement (p : Nat) : (movement positions connectors).count p =
    (exchanged (carried positions connectors)).count p +
      (exchanged (stray positions connectors)).count p := by
  have parts := List.filter_append_perm (fun e => decide (Strays positions e))
    (exchanges positions connectors 0)
  have counts : (exchanged (exchanges positions connectors 0)).count p = _ :=
    ((parts.flatMap_right _).count_eq p).symm
  rw [List.flatMap_append, List.count_append, Nat.add_comm] at counts
  simpa [movement_eq, exchanged, carried, stray] using counts

/-- No two straying exchanges meet: what one leads to is stable, or the last position. -/
theorem stray_apart (fits : positions.length = connectors.length + 1) :
    (exchanged (stray positions connectors)).Nodup := by
  have ascending : Ascending (stray positions connectors) :=
    (exchanges_ascending positions connectors 0).filter _
  rw [List.nodup_iff_count_le_one]
  intro p
  rw [count_exchanged]
  have starts := List.nodup_iff_count_le_one.mp ascending.starts_nodup p
  have ends := List.nodup_iff_count_le_one.mp ascending.ends_nodup p
  by_cases start : p ∈ (stray positions connectors).map Prod.fst
  · have never : p ∉ (stray positions connectors).map Prod.snd := by
      intro landing
      obtain ⟨e, he, rfl⟩ := List.mem_map.mp start
      obtain ⟨f, hf, same⟩ := List.mem_map.mp landing
      obtain ⟨found, strays⟩ := mem_stray.mp he
      obtain ⟨_, inside, _⟩ := of_mem_exchanges found
      obtain ⟨_, _, leads⟩ := of_mem_exchanges (mem_stray.mp hf).1
      have stable := landed_passOver fits f.1 (by omega) (by omega)
      rw [← leads, same, strays.2] at stable
      cases stable
    rw [List.count_eq_zero_of_not_mem never]
    exact starts
  · rw [List.count_eq_zero_of_not_mem start]
    omega

theorem StillAt.iterate {p : Nat} (still : StillAt pairs p) {pair : StatePair} {particle : UInt8}
    (own : pairs[p]? = some pair) (one : particle = pair.donor ∨ particle = pair.acceptor)
    (n : Nat) : (flipped pair)^[n] particle = particle :=
  Function.iterate_fixed ((flipped_eq_iff one).mpr (still pair own)) n

end Generate

section Movement

variable {particles : List Particle} {positions : List PositionOffer}
  {connectors : List Connector} {metropolis : Bool} {rule : Rule} {pairs : List StatePair}

/-- The state that the movement of a rule leads to: both positions of every exchange are toggled. -/
def Rule.followed (rule : Rule) (pairs : List StatePair) : Option PathState :=
  rule.movement.foldlM (Generate.toggleAt pairs) rule.start

namespace Generate

theorem Made.followed (made : Made particles positions connectors metropolis pairs rule)
    (fits : positions.length = connectors.length + 1) :
    ∃ last, rule.followed pairs = some last ∧
      Toggled pairs (Generate.movement positions connectors) rule.start last := by
  have inside : ∀ p ∈ Generate.movement positions connectors, p < pairs.length := by
    intro p hp
    rw [made.offered.length_eq]
    exact exchanged_inside fits p hp
  obtain ⟨last, run, toggled⟩ := toggled_of_toggles made.started inside
  exact ⟨last, by rw [Rule.followed, made.movement, run], toggled⟩

end Generate

open Generate in
/-- Following the movement of a rule ends in its final state exactly when the exchanges that leave
an unstable position behind a static connector toggle nothing: the way to the final state passes
over such a position, the movement starts from it. -/
theorem Rule.followed_iff (particles : List Particle) (positions : List PositionOffer)
    (connectors : List Connector) (metropolis : Bool) (rule : Rule)
    (h : rule ∈ pathRules particles positions connectors metropolis) :
    (∃ pairs, Made particles positions connectors metropolis pairs rule) ∧
      ∀ pairs, Made particles positions connectors metropolis pairs rule →
        ∃ last, rule.followed pairs = some last ∧
          (last = rule.final ↔ ∀ e ∈ rule.exchanges, Strays positions e →
            StillAt pairs e.1 ∧ StillAt pairs e.2) := by
  obtain ⟨fits, chosen⟩ := made_of_mem_pathRules h
  refine ⟨chosen, fun pairs made => ?_⟩
  obtain ⟨last, run, followed⟩ := made.followed fits
  have toggled := made.toggled fits
  refine ⟨last, run, ?_⟩
  rw [made.exchanges_eq, followed.eq_iff made.started toggled]
  constructor
  · intro agree
    have still : ∀ p ∈ exchanged (stray positions connectors), StillAt pairs p := by
      intro p hp pair own
      obtain ⟨x, hx, one⟩ := aligned_right made.started own
      have once := List.count_eq_one_of_mem (stray_apart fits) hp
      have same := agree p pair x own hx
      rw [count_movement, once, Function.iterate_succ_apply'] at same
      exact (flipped_eq_iff (iterate_flipped_drawn one _)).mp same
    intro e he strays
    have among := mem_stray.mpr ⟨he, strays⟩
    constructor
    · exact still _ (mem_exchanged.mpr ⟨e, among, Or.inl rfl⟩)
    · exact still _ (mem_exchanged.mpr ⟨e, among, Or.inr rfl⟩)
  · intro still p pair x own hx
    obtain ⟨_, hx', one⟩ := aligned_right made.started own
    obtain rfl := Option.some.inj (hx.symm.trans hx')
    rw [count_movement]
    by_cases touched : p ∈ exchanged (stray positions connectors)
    · obtain ⟨e, he, place⟩ := mem_exchanged.mp touched
      obtain ⟨found, strays⟩ := mem_stray.mp he
      obtain ⟨start, landing⟩ := still e found strays
      have fixed : StillAt pairs p := by
        rcases place with rfl | rfl
        · exact start
        · exact landing
      rw [fixed.iterate own one, fixed.iterate own one]
    · rw [List.count_eq_zero_of_not_mem touched, Nat.add_zero]

/-- An unstable position between a particle and a position that may be empty. -/
def between (last : StatePair) : List PositionOffer :=
  [.of [⟨1, 2⟩] false, .of [⟨1, 2⟩] true, .of [last] false]

theorem chosen_between {last : StatePair}
    (offered : List.Forall₂ (fun pair (position : PositionOffer) => pair ∈ position.pairs) pairs
      (between last)) : pairs = [⟨1, 2⟩, ⟨1, 0⟩, last] := by
  simpa [between, PositionOffer.of, voidByte, voidIndex, List.forall₂_cons_right_iff] using offered

open ReferenceData Generate in
theorem between_followed :
    (∃ rule ∈ pathRules chain.particles (between ⟨1, 2⟩) [.dynamic, .dynamic] false,
      rule.start = [1, 0, 2] ∧ rule.movement = [0, 2] ∧
      ∃ pairs, Made chain.particles (between ⟨1, 2⟩) [.dynamic, .dynamic] false pairs rule ∧
        rule.followed pairs = some rule.final) ∧
    ∃ rule ∈ pathRules chain.particles (between ⟨1, 0⟩) [.static, .dynamic] false,
      rule.start = [1, 0, 1] ∧ rule.final = [1, 0, 1] ∧ rule.movement = [1, 2] ∧
      ∃ pairs, Made chain.particles (between ⟨1, 0⟩) [.static, .dynamic] false pairs rule ∧
        rule.followed pairs = some [1, 1, 0] ∧ rule.followed pairs ≠ some rule.final := by
  have found : (⟨[1, 0, 2], [0, 1, 0], [2, 0, 1], [0, 2], ⟨18⟩⟩ : Rule) ∈
        pathRules chain.particles (between ⟨1, 2⟩) [.dynamic, .dynamic] false ∧
      (⟨[1, 0, 1], [0, 1, 0], [1, 0, 1], [1, 2], ⟨6⟩⟩ : Rule) ∈
        pathRules chain.particles (between ⟨1, 0⟩) [.static, .dynamic] false := by
    decide +kernel
  obtain ⟨jump, tow⟩ := found
  refine ⟨⟨_, jump, rfl, rfl, ?_⟩, _, tow, rfl, rfl, rfl, ?_⟩
  · obtain ⟨⟨pairs, made⟩, each⟩ := Rule.followed_iff _ _ _ _ _ jump
    obtain ⟨last, run, agrees⟩ := each pairs made
    refine ⟨pairs, made, ?_⟩
    rw [run, agrees.mpr]
    rw [chosen_between made.offered]
    decide
  · obtain ⟨⟨pairs, made⟩, each⟩ := Rule.followed_iff _ _ _ _ _ tow
    obtain ⟨last, run, agrees⟩ := each pairs made
    refine ⟨pairs, made, ?_, ?_⟩
    · rw [chosen_between made.offered]
      rfl
    · rw [run, ne_eq, Option.some.injEq, agrees, chosen_between made.offered]
      decide

end Movement

end CrystalModel
