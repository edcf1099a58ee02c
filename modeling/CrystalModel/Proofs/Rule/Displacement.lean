import CrystalModel.Proofs.Reference.Validation
import CrystalModel.Proofs.Rule.Exchanges
import CrystalModel.Rule.Displacement

/-! # Displacements of rules and of connector patterns

A rule moves its particles by exchanges, a connector pattern by runs of dynamic connectors that are
corrected at unstable positions. Both are brought into the same form, a recursion over the
connectors from a position that an exchange may start at; there they are compared. -/
namespace CrystalModel

/-- Wherever an unstable position lies behind a dynamic connector, another one leads on from there
to a stable position. -/
def Bridged (connectors : List Connector) (unstable : List Bool) : Prop :=
  ∀ i < connectors.length, connectors[i]? = some .dynamic → unstable[i + 1]? = some true →
    connectors[i + 1]? = some .dynamic ∧ unstable[i + 2]? = some false

instance (connectors : List Connector) (unstable : List Bool) :
    Decidable (Bridged connectors unstable) :=
  inferInstanceAs (Decidable (∀ i < connectors.length, _))

theorem bridged_cons {c : Connector} {cs : List Connector} {u v : Bool} {us : List Bool} :
    Bridged (c :: cs) (u :: v :: us) ↔
      (c = .dynamic → v = true → cs[0]? = some .dynamic ∧ us[0]? = some false) ∧
        Bridged cs (v :: us) := by
  constructor
  · intro h
    refine ⟨fun hc hv => by simpa using h 0 (by simp) (by simp [hc]) (by simp [hv]), ?_⟩
    intro i hi hc hu
    simpa using h (i + 1) (by simpa using hi) (by simpa using hc) (by simpa using hu)
  · rintro ⟨first, others⟩ i hi hc hu
    cases i with
    | zero => simpa using first (by simpa using hc) (by simpa using hu)
    | succ i => simpa using others i (by simpa using hi) (by simpa using hc) (by simpa using hu)

section Exchanges

theorem swapPlaces_ends {α : Type} (front middle back : List α) (x y : α) :
    swapPlaces (front ++ x :: (middle ++ y :: back)) front.length
      (front.length + 1 + middle.length) = front ++ y :: (middle ++ x :: back) := by
  have here : (front ++ x :: (middle ++ y :: back))[front.length]? = some x := by simp
  have there : (front ++ x :: (middle ++ y :: back))[front.length + 1 + middle.length]? =
      some y := by
    rw [List.getElem?_append_right (by omega), Nat.add_assoc, Nat.add_sub_cancel_left,
      Nat.add_comm 1]
    simp
  simp only [swapPlaces, here, there]
  rw [List.set_append_right _ _ (Nat.le_refl _), Nat.sub_self, List.set_cons_zero,
    List.set_append_right _ _ (by omega), Nat.add_assoc, Nat.add_sub_cancel_left, Nat.add_comm 1,
    List.set_cons_succ, List.set_append_right _ _ (Nat.le_refl _), Nat.sub_self,
    List.set_cons_zero]

/-- How many unstable positions an exchange passes over, of those that lie behind it. The end of the
path is none of them. -/
def passed : List Bool → Nat
  | true :: next :: rest => passed (next :: rest) + 1
  | _ => 0

theorem passed_lt {unstable : List Bool} (nonempty : unstable ≠ []) :
    passed unstable < unstable.length := by
  fun_induction passed unstable with
  | case1 next rest ih =>
    have := ih (by simp)
    simpa using this
  | case2 us _ => exact List.length_pos_iff.mpr nonempty

theorem passOver_eq (positions : List PositionOffer) (i : Nat) :
    Generate.passOver positions i = i + passed ((positions.map (·.unstable)).drop (i + 1)) := by
  fun_induction Generate.passOver positions i with
  | case1 i further ih =>
    obtain ⟨inside, unstable⟩ := further
    have flag : ((positions.map (·.unstable)).drop (i + 1)) =
        true :: (positions.map (·.unstable)).drop (i + 2) := by
      rw [List.drop_eq_getElem_cons (by simp; omega)]
      simpa [Generate.isUnstable, List.getElem?_eq_getElem (by omega : i + 1 < positions.length)]
        using unstable
    obtain ⟨next, rest, more⟩ : ∃ next rest,
        (positions.map (·.unstable)).drop (i + 2) = next :: rest :=
      ⟨_, _, List.drop_eq_getElem_cons (by simpa using inside)⟩
    rw [ih, flag, more, passed]
    omega
  | case2 i stop =>
    suffices passed ((positions.map (·.unstable)).drop (i + 1)) = 0 by omega
    by_cases inside : i + 2 < positions.length
    · have stable : positions[i + 1].unstable = false := by
        simpa [Generate.isUnstable, inside,
          List.getElem?_eq_getElem (by omega : i + 1 < positions.length)] using stop
      rw [List.drop_eq_getElem_cons (by simp; omega), List.getElem_map, stable, passed]
      simp
    · have short : ((positions.map (·.unstable)).drop (i + 1)).length ≤ 1 := by
        rw [List.length_drop, List.length_map]
        omega
      generalize (positions.map (·.unstable)).drop (i + 1) = flags at short ⊢
      rcases flags with _ | ⟨last, _ | ⟨_, _⟩⟩
      · rfl
      · simp [passed]
      · simp at short

/-- The displacements from a path position on. An exchange may start at the first position that is
not skipped; `carried` counts the steps that the particle held at the first position has come. -/
def exchangeDisplacements : Nat → Nat → List Connector → List Bool → List Int
  | carried, _, [], _ => [-(carried : Int)]
  | carried, skipped + 1, _ :: rest, unstable =>
    0 :: exchangeDisplacements (carried + 1) skipped rest unstable.tail
  | carried, 0, .static :: rest, unstable =>
    -(carried : Int) :: exchangeDisplacements 0 0 rest unstable.tail
  | carried, 0, .dynamic :: rest, unstable =>
    (passed unstable + 1 : Int) ::
      exchangeDisplacements (carried + 1) (passed unstable) rest unstable.tail

theorem exchangeDisplacements_skipped {skipped : Nat} {connectors : List Connector}
    (inside : skipped ≤ connectors.length) (carried : Nat) (unstable : List Bool) :
    exchangeDisplacements carried skipped connectors unstable = List.replicate skipped 0 ++
      exchangeDisplacements (carried + skipped) 0 (connectors.drop skipped)
        (unstable.drop skipped) := by
  induction skipped generalizing carried connectors unstable with
  | zero => simp
  | succ skipped ih =>
    cases connectors with
    | nil => simp at inside
    | cons c rest =>
      rw [exchangeDisplacements, ih (by simpa using inside), List.replicate_succ, List.cons_append,
        List.drop_succ_cons, List.drop_tail, Nat.add_right_comm, Nat.add_assoc]

/-- The displacements of positions that hold particles of the given origins, numbered from `i`
on. -/
def offsets (i : Nat) (origins : List Nat) : List Int :=
  (origins.zipIdx i).map fun (origin, k) => (origin : Int) - k

@[simp] theorem offsets_cons (i origin : Nat) (rest : List Nat) :
    offsets i (origin :: rest) = ((origin : Int) - i) :: offsets (i + 1) rest :=
  rfl

theorem offsets_append (i : Nat) (front back : List Nat) :
    offsets i (front ++ back) = offsets i front ++ offsets (i + front.length) back := by
  rw [offsets, List.zipIdx_append, List.map_append, Nat.add_comm]
  rfl

theorem offsets_range' (i n : Nat) : offsets i (List.range' i n) = List.replicate n 0 := by
  induction n generalizing i with
  | zero => rfl
  | succ n ih => rw [List.range'_succ, offsets_cons, ih, Int.sub_self, List.replicate_succ]

theorem range'_passing {i m n : Nat} (room : i + m < n) : List.range' (i + 1) (n - i) =
    List.range' (i + 1) m ++ (i + m + 1) :: List.range' (i + m + 1 + 1) (n - (i + m + 1)) := by
  have size : n - i = m + (n - (i + m + 1) + 1) := by omega
  rw [size, ← List.range'_append_1, List.range'_succ, Nat.add_right_comm]

theorem drop_of_getElem? {α : Type} {xs : List α} {i : Nat} {x : α} (h : xs[i]? = some x) :
    xs.drop i = x :: xs.drop (i + 1) := by
  obtain ⟨inside, rfl⟩ := List.getElem?_eq_some_iff.mp h
  exact List.drop_eq_getElem_cons inside

theorem static_of_not_dynamic {connectors : List Connector} {i : Nat}
    (more : i < connectors.length) (static : connectors[i]? ≠ some .dynamic) :
    connectors[i]? = some .static := by
  rw [List.getElem?_eq_getElem more] at static ⊢
  cases kind : connectors[i] with
  | dynamic => exact absurd (congrArg some kind) static
  | static => rfl

theorem passed_inside {unstable : List Bool} {i n : Nat} (fits : unstable.length = n + 1)
    (more : i < n) : i + passed (unstable.drop (i + 1)) < n := by
  have further : unstable.drop (i + 1) ≠ [] := by
    simp
    omega
  have ahead := passed_lt further
  rw [List.length_drop] at ahead
  omega

theorem offsets_of_exchanges {positions : List PositionOffer} {connectors : List Connector}
    (fits : positions.length = connectors.length + 1) {i : Nat} (inside : i ≤ connectors.length)
    (front : List Nat) (reached : front.length = i) (start : Nat) (behind : start ≤ i) :
    ∃ back, (Generate.exchanges positions connectors i).foldl
        (fun order (a, b) => swapPlaces order a b)
        (front ++ start :: List.range' (i + 1) (connectors.length - i)) = front ++ back ∧
      offsets i back = exchangeDisplacements (i - start) 0 (connectors.drop i)
        ((positions.map (·.unstable)).drop (i + 1)) := by
  fun_induction Generate.exchanges positions connectors i generalizing front start with
  | case1 i more dynamic ih =>
    have reach := passOver_eq positions i
    set m := passed ((positions.map (·.unstable)).drop (i + 1)) with hm
    have room : i + m < connectors.length := passed_inside (by simpa using fits) more
    have landing : i + m + 1 = front.length + 1 + (List.range' (i + 1) m).length := by
      simp [reached]
      omega
    rw [reach] at ih
    obtain ⟨back, hback, moved⟩ := ih (by omega)
      (front ++ (i + m + 1) :: List.range' (i + 1) m) (by simp [reached]; omega) start (by omega)
    refine ⟨(i + m + 1) :: (List.range' (i + 1) m ++ back), ?_, ?_⟩
    · rw [reach, List.foldl_cons, range'_passing room]
      have swapped := swapPlaces_ends front (List.range' (i + 1) m)
        (List.range' (i + m + 1 + 1) (connectors.length - (i + m + 1))) start (i + m + 1)
      rw [← landing, reached] at swapped
      simpa [swapped] using hback
    · rw [drop_of_getElem? dynamic, exchangeDisplacements, ← hm, offsets_cons, offsets_append,
        offsets_range', List.length_range', exchangeDisplacements_skipped (by simp; omega),
        List.drop_drop, List.tail_drop, List.drop_drop]
      have place : i + 1 + m = i + m + 1 := by omega
      have next : i + 1 + 1 + m = i + m + 1 + 1 := by omega
      have steps : i - start + 1 + m = i + m + 1 - start := by omega
      rw [place, next, steps, moved]
      simp
      omega
  | case2 i more static ih =>
    obtain ⟨back, hback, moved⟩ := ih (by omega) (front ++ [start]) (by simp [reached])
      (i + 1) (Nat.le_refl _)
    refine ⟨start :: back, ?_, ?_⟩
    · have size : connectors.length - i = connectors.length - (i + 1) + 1 := by omega
      rw [size, List.range'_succ]
      simpa using hback
    · rw [drop_of_getElem? (static_of_not_dynamic more static), exchangeDisplacements,
        offsets_cons, moved, Nat.sub_self, List.tail_drop]
      simp
      omega
  | case3 i spent =>
    have last : i = connectors.length := by omega
    subst last
    refine ⟨[start], by simp, ?_⟩
    rw [List.drop_length, exchangeDisplacements, offsets_cons]
    simp [offsets]
    omega

variable {particles : List Particle} {positions : List PositionOffer}
  {connectors : List Connector} {metropolis : Bool}

/-- The displacements of a rule, by a recursion over the connectors. -/
theorem displacements_eq {rule : Rule}
    (h : rule ∈ pathRules particles positions connectors metropolis) :
    rule.displacements =
      exchangeDisplacements 0 0 connectors (positions.map (·.unstable)).tail := by
  obtain ⟨fits, pairs, made⟩ := made_of_mem_pathRules h
  have length : rule.length = connectors.length + 1 := made.length.trans fits
  obtain ⟨back, hback, moved⟩ :=
    offsets_of_exchanges fits (Nat.zero_le _) [] rfl 0 (Nat.le_refl 0)
  have origins : rule.origins = back := by
    rw [Rule.origins, Rule.exchanges, made.movement, Generate.movement, pairUp_flatMap, length,
      List.range_eq_range', List.range'_succ]
    simpa using hback
  rw [Rule.displacements, origins]
  simpa [offsets] using moved

end Exchanges

section Pattern

/-- The corrections at unstable positions. The first flag belongs to the second displacement. -/
def bridgeAll : List Connector → List Bool → List Int → List Int
  | c :: connectors, u :: unstable, d :: e :: rest =>
    if u && c == .dynamic then (d + 1) :: bridgeAll connectors unstable (0 :: rest)
    else d :: bridgeAll connectors unstable (e :: rest)
  | _, _, displacements => displacements

theorem bridge_append (front rest : List Int) (d e : Int) :
    bridge (front ++ d :: e :: rest) (front.length + 1) = front ++ (d + 1) :: 0 :: rest := by
  have raised : (front ++ d :: e :: rest).modify front.length (· + 1) =
      front ++ (d + 1) :: e :: rest := by
    rw [List.modify_eq_set_getElem?]
    simp
  rw [bridge, Nat.add_sub_cancel, raised, List.set_append_right _ _ (Nat.le_succ _),
    Nat.succ_sub (Nat.le_refl _), Nat.sub_self, List.set_cons_succ, List.set_cons_zero]

theorem foldl_bridge {connectors : List Connector} {unstable : List Bool} (front : List Int)
    {rest : List Int} (enough : rest.length = connectors.length + 1)
    (flags : unstable.length = front.length + rest.length) :
    (connectors.zipIdx front.length).foldl
      (fun displacements (connector, i) =>
        if unstable[i + 1]?.getD false && connector == .dynamic then bridge displacements (i + 1)
        else displacements) (front ++ rest) =
      front ++ bridgeAll connectors (unstable.drop (front.length + 1)) rest := by
  induction connectors generalizing front rest with
  | nil => simp [bridgeAll]
  | cons c cs ih =>
    match rest, enough with
    | d :: e :: rest, enough =>
      have inside : front.length + 1 < unstable.length := by
        rw [flags]
        simp
      have next : ∀ d' e', (cs.zipIdx (front.length + 1)).foldl
          (fun displacements (connector, i) =>
            if unstable[i + 1]?.getD false && connector == .dynamic then
              bridge displacements (i + 1)
            else displacements) (front ++ d' :: e' :: rest) =
          front ++ d' :: bridgeAll cs (unstable.drop (front.length + 1 + 1)) (e' :: rest) := by
        intro d' e'
        have fewer : (e' :: rest).length = cs.length + 1 := by simpa using enough
        have step := ih (front ++ [d']) fewer (by simp [flags]; omega)
        simpa using step
      rw [List.zipIdx_cons, List.foldl_cons, List.drop_eq_getElem_cons inside, bridgeAll]
      simp only [List.getElem?_eq_getElem inside, Option.getD_some]
      split
      · rw [bridge_append, next]
      · rw [next]

@[simp] theorem runDisplacements_length (run : Int) (connectors : List Connector) :
    (runDisplacements run connectors).length = connectors.length + 1 := by
  fun_induction runDisplacements run connectors with
  | case1 => rfl
  | case2 run rest ih => rw [List.length_cons, ih, List.length_cons]
  | case3 run rest ih => rw [List.length_cons, ih, List.length_cons]

theorem bridgeAll_cons (c : Connector) (u : Bool) (cs : List Connector) (us : List Bool)
    (d run : Int) : bridgeAll (c :: cs) (u :: us) (d :: runDisplacements run cs) =
      if u && c == .dynamic then (d + 1) :: bridgeAll cs us (0 :: (runDisplacements run cs).tail)
      else d :: bridgeAll cs us (runDisplacements run cs) := by
  cases next : runDisplacements run cs with
  | nil =>
    have := runDisplacements_length run cs
    simp [next] at this
  | cons e rest => rfl

theorem pathDisplacements_eq {connectors : List Connector} {unstable : List Bool}
    (fits : unstable.length = connectors.length + 1) :
    pathDisplacements connectors unstable =
      bridgeAll connectors unstable.tail (runDisplacements 0 connectors) := by
  have flags : unstable.length =
      ([] : List Int).length + (runDisplacements 0 connectors).length := by
    simp [fits]
  have folded := foldl_bridge [] (runDisplacements_length 0 connectors) flags
  simpa [pathDisplacements] using folded

end Pattern

/-- From a position on that an exchange may start at, both forms agree exactly on bridged
connectors, and only when the run of dynamic connectors has brought the held particle along. -/
theorem exchangeDisplacements_eq_iff : ∀ (cs : List Connector) (u : Bool) (us : List Bool)
    (carried run : Nat), us.length = cs.length → run ≤ carried →
    (exchangeDisplacements carried 0 cs us = bridgeAll cs us (runDisplacements run cs) ↔
      Bridged cs (u :: us) ∧ run = carried)
  | [], u, us, carried, run, _, _ => by
    have empty : Bridged [] (u :: us) := fun i hi => absurd hi (Nat.not_lt_zero i)
    simp only [exchangeDisplacements, bridgeAll, runDisplacements, empty, true_and]
    simp
    omega
  | .static :: cs, u, v :: us, carried, run, len, _ => by
    have ih := exchangeDisplacements_eq_iff cs v us 0 0 (by simpa using len) (Nat.le_refl 0)
    rw [Int.ofNat_zero] at ih
    have along : (carried : Int) = run ↔ run = carried := by omega
    rw [runDisplacements, bridgeAll_cons, exchangeDisplacements, List.tail_cons, bridged_cons]
    simp [ih, along, and_comm]
  | .dynamic :: cs, u, false :: us, carried, run, len, le => by
    have ih := exchangeDisplacements_eq_iff cs false us (carried + 1) (run + 1)
      (by simpa using len) (by omega)
    rw [Int.natCast_succ] at ih
    rw [runDisplacements, bridgeAll_cons, exchangeDisplacements, List.tail_cons, bridged_cons]
    simp [passed, ih]
  | [.dynamic], u, [true], carried, run, _, _ => by
    simp [bridged_cons, exchangeDisplacements, runDisplacements, bridgeAll, passed]
  | .dynamic :: .static :: cs, u, true :: v :: us, carried, run, len, le => by
    -- the run ends at the static connector, but the exchange goes on behind it
    have ih := exchangeDisplacements_eq_iff cs v us (carried + 2) 0 (by simpa using len) (by omega)
    have differ : exchangeDisplacements (carried + 2) 0 cs us ≠
        bridgeAll cs us (runDisplacements 0 cs) :=
      mt ih.mp (by omega)
    have apart : ¬Bridged (.dynamic :: .static :: cs) (u :: true :: v :: us) := by
      simp [bridged_cons]
    have pattern : bridgeAll (.dynamic :: .static :: cs) (true :: v :: us)
        (runDisplacements run (.dynamic :: .static :: cs)) =
          2 :: 0 :: bridgeAll cs us (runDisplacements 0 cs) := by
      rw [runDisplacements, bridgeAll_cons, runDisplacements, List.tail_cons]
      simp [bridgeAll_cons]
    cases v with
    | false => simpa [apart, pattern, passed, exchangeDisplacements] using differ
    | true =>
      simp only [apart, false_and, iff_false, pattern, passed, exchangeDisplacements]
      intro same
      obtain ⟨first, rest⟩ := List.cons.inj same
      have stays : passed (true :: us) = 0 := by omega
      obtain ⟨_, rest⟩ := List.cons.inj rest
      rw [stays] at rest
      exact differ rest
  | .dynamic :: .dynamic :: cs, u, true :: false :: us, carried, run, len, le => by
    have ih := exchangeDisplacements_eq_iff cs false us (carried + 2) (run + 2)
      (by simpa using len) (by omega)
    have pattern : bridgeAll (.dynamic :: .dynamic :: cs) (true :: false :: us)
        (runDisplacements run (.dynamic :: .dynamic :: cs)) =
          2 :: 0 :: bridgeAll cs us (runDisplacements (run + 2 : Nat) cs) := by
      rw [runDisplacements, bridgeAll_cons, runDisplacements, List.tail_cons]
      simp [bridgeAll_cons, Int.add_assoc]
    rw [pattern, bridged_cons, bridged_cons]
    simpa [passed, exchangeDisplacements] using ih
  | .dynamic :: .dynamic :: cs, u, true :: true :: us, carried, run, len, le => by
    have apart : ¬Bridged (.dynamic :: .dynamic :: cs) (u :: true :: true :: us) := by
      simp [bridged_cons]
    have pattern : bridgeAll (.dynamic :: .dynamic :: cs) (true :: true :: us)
        (runDisplacements run (.dynamic :: .dynamic :: cs)) =
          2 :: 1 :: bridgeAll cs us (0 :: (runDisplacements (run + 1 + 1) cs).tail) := by
      rw [runDisplacements, bridgeAll_cons, runDisplacements, List.tail_cons]
      simp [bridgeAll_cons]
    simp [apart, pattern, passed, exchangeDisplacements]

/-- What a rule and its connector pattern move, compared. The rule carries a particle over all
unstable positions up to the next stable one; the pattern corrects every position on its own, so it
says the same exactly where unstable positions stand alone between dynamic connectors. -/
theorem Rule.displacements_eq_iff (particles : List Particle) (positions : List PositionOffer)
    (connectors : List Connector) (metropolis : Bool) (rule : Rule)
    (h : rule ∈ pathRules particles positions connectors metropolis) :
    rule.displacements = pathDisplacements connectors (positions.map (·.unstable)) ↔
      Bridged connectors (positions.map (·.unstable)) := by
  have fits : (positions.map (·.unstable)).length = connectors.length + 1 := by
    simpa using (made_of_mem_pathRules h).1
  obtain ⟨u, us, flags⟩ : ∃ u us, positions.map (·.unstable) = u :: us :=
    List.exists_cons_of_length_eq_add_one fits
  rw [displacements_eq h, pathDisplacements_eq fits]
  rw [flags] at fits ⊢
  simpa using exchangeDisplacements_eq_iff connectors u us 0 0 (by simpa using fits) (Nat.le_refl 0)

def jumpOver (n : Nat) : List PositionOffer :=
  .of [⟨1, 2⟩] false :: List.replicate n (.of [⟨1, 2⟩] true) ++ [.of [⟨1, 2⟩] false]

open ReferenceData in
theorem jumpOver_displacements :
    (∃ rule ∈ pathRules chain.particles (jumpOver 1) [.dynamic, .dynamic] false,
      rule.start = [1, 0, 2] ∧
      rule.displacements = pathDisplacements [.dynamic, .dynamic] [false, true, false]) ∧
    ∃ rule ∈ pathRules chain.particles (jumpOver 2) [.dynamic, .dynamic, .dynamic] false,
      rule.start = [1, 0, 0, 2] ∧ rule.displacements = [3, 0, 0, -3] ∧
      pathDisplacements [.dynamic, .dynamic, .dynamic] [false, true, true, false] =
        [2, 1, 0, -3] ∧
      rule.displacements ≠ pathDisplacements [.dynamic, .dynamic, .dynamic]
        [false, true, true, false] := by
  have single : (⟨[1, 0, 2], [0, 1, 0], [2, 0, 1], [0, 2], ⟨18⟩⟩ : Rule) ∈
      pathRules chain.particles (jumpOver 1) [.dynamic, .dynamic] false := by
    decide +kernel
  have double : (⟨[1, 0, 0, 2], [0, 1, 1, 0], [2, 0, 0, 1], [0, 3], ⟨26⟩⟩ : Rule) ∈
      pathRules chain.particles (jumpOver 2) [.dynamic, .dynamic, .dynamic] false := by
    decide +kernel
  refine ⟨⟨_, single, rfl, ?_⟩, _, double, rfl, by decide, by decide, ?_⟩
  · exact (Rule.displacements_eq_iff _ _ _ _ _ single).mpr (by decide)
  · exact mt (Rule.displacements_eq_iff _ _ _ _ _ double).mp (by decide)

end CrystalModel
