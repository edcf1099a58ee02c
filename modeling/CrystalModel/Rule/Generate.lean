import CrystalModel.Reference.Transition
import CrystalModel.Rule.Basic

/-! # Enumeration of rules

All occupation changes that a path allows. Each path position offers exchange pairs; a choice
of one pair and of one of its two states per position is a rule when the exchanges along the
path can be carried out and conserve matter. -/
namespace CrystalModel

structure StatePair where
  donor : UInt8
  acceptor : UInt8
deriving DecidableEq, Repr

structure PositionOffer where
  pairs : List StatePair
  unstable : Bool
deriving DecidableEq, Repr

/-- An unstable position is empty whenever its donor is not in flight. -/
def PositionOffer.of (pairs : List StatePair) (unstable : Bool) : PositionOffer :=
  if unstable then ⟨pairs.map fun p => ⟨p.donor, voidByte⟩, true⟩ else ⟨pairs, false⟩

def choices {α : Type} : List (List α) → List (List α)
  | [] => [[]]
  | xs :: rest => xs.flatMap fun x => (choices rest).map (x :: ·)

namespace Generate

def isUnstable (positions : List PositionOffer) (i : Nat) : Bool :=
  (positions[i]?.map (·.unstable)).getD false

/-- The last position before the partner of position `i`: unstable positions in between are
passed over, the end of the path is not. -/
def passOver (positions : List PositionOffer) (i : Nat) : Nat :=
  if i + 2 < positions.length ∧ isUnstable positions (i + 1) then passOver positions (i + 1)
  else i
termination_by positions.length - i

theorem le_passOver (positions : List PositionOffer) (i : Nat) : i ≤ passOver positions i := by
  fun_induction passOver positions i <;> omega

def exchanges (positions : List PositionOffer) (connectors : List Connector) (i : Nat) :
    List (Nat × Nat) :=
  if i < connectors.length then
    if connectors[i]? = some .dynamic then
      (i, passOver positions i + 1) :: exchanges positions connectors (passOver positions i + 1)
    else exchanges positions connectors (i + 1)
  else []
termination_by connectors.length - i
decreasing_by
  · have := le_passOver positions i
    omega
  · omega

def movement (positions : List PositionOffer) (connectors : List Connector) : List Nat :=
  (exchanges positions connectors 0).flatMap fun (i, j) => [i, j]

/-- Unstable positions start empty, and at least half of the stable positions start with
their donor. -/
def canReachEnd (start : PathState) (pairs : List StatePair) (positions : List PositionOffer) :
    Bool :=
  let rows := start.zip (pairs.zip positions)
  let unstable := rows.filter fun (_, _, position) => position.unstable
  let donors := rows.filter fun (state, pair, position) =>
    !position.unstable && state == pair.donor
  unstable.all (fun (state, _, _) => state == voidByte) &&
    start.length - unstable.length ≤ 2 * donors.length

def toggle (pair : StatePair) (current : UInt8) : Option (UInt8 × Bool) :=
  if current = pair.acceptor then some (pair.donor, true)
  else if current = pair.donor then some (pair.acceptor, false)
  else none

def exchange (pairs : List StatePair) (state : PathState) (i j : Nat) : Option PathState := do
  let (first, firstDonor) ← toggle (← pairs[i]?) (← state[i]?)
  let (second, secondDonor) ← toggle (← pairs[j]?) (← state[j]?)
  if firstDonor = secondDonor then none else some ((state.set i first).set j second)

def finish (positions : List PositionOffer) (connectors : List Connector)
    (pairs : List StatePair) (state : PathState) (i : Nat) : Option PathState :=
  if i < connectors.length then
    if connectors[i]? = some .dynamic then
      match exchange pairs state i (passOver positions i + 1) with
      | none => none
      | some state => finish positions connectors pairs state (passOver positions i + 1)
    else finish positions connectors pairs state (passOver positions i + 1)
  else some state
termination_by connectors.length - i
decreasing_by
  all_goals
    have := le_passOver positions i
    omega

/-- In flight the unstable positions hold their donor and the others nothing. -/
def inFlight (positions : List PositionOffer) (pairs : List StatePair) : PathState :=
  (positions.zip pairs).map fun (position, pair) =>
    if position.unstable then pair.donor else voidByte

def pathFlags (connectors : List Connector) : RuleFlags :=
  let length := if connectors.length = 1 then RuleFlags.exchange else .migration
  let vehicle := if connectors.contains .static then RuleFlags.vehicle else .none
  let chained := if 2 < connectors.count .dynamic then RuleFlags.chained else .none
  (length.union vehicle).union chained

def isVacancy (particles : List Particle) (p : UInt8) : Bool :=
  (particles[p.toNat]?.map (·.isVacancy)).getD false

def isEmpty (particles : List Particle) (p : UInt8) : Bool :=
  p == voidByte || isVacancy particles p

def symbol (particles : List Particle) (p : UInt8) : Option String :=
  particles[p.toNat]?.map (·.symbol)

abbrev Change := UInt8 × UInt8

/-- A particle and an empty place trade positions. -/
def isHop (particles : List Particle) (l r : Change) : Bool :=
  isEmpty particles l.1 != isEmpty particles l.2 &&
    isEmpty particles r.1 != isEmpty particles r.2 && l.1 == r.2 && l.2 == r.1

/-- Particles change a property in place; between sites without a path, they either do so or
trade positions, and not both. -/
def isConversion (particles : List Particle) (metropolis : Bool) (l r : Change) : Bool :=
  let property := symbol particles l.1 == symbol particles l.2 &&
    symbol particles r.1 == symbol particles r.2
  if metropolis then property != (l.1 == r.2 && l.2 == r.1) else property

def changeAt (r : Rule) (i : Nat) : Change := (r.start[i]?.getD 0, r.final[i]?.getD 0)

def isBalanced (particles : List Particle) (metropolis : Bool) (r : Rule) : Bool :=
  r.exchanges.all fun (i, j) =>
    isHop particles (changeAt r i) (changeAt r j) ||
      isConversion particles metropolis (changeAt r i) (changeAt r j)

def candidate (particles : List Particle) (positions : List PositionOffer)
    (connectors : List Connector) (metropolis : Bool) (pairs : List StatePair)
    (start : PathState) : Option Rule :=
  if !canReachEnd start pairs positions then none
  else match finish positions connectors pairs start 0 with
    | none => none
    | some final =>
      let flags := if start.any (isVacancy particles) then
        (pathFlags connectors).union .vacancy else pathFlags connectors
      let rule : Rule :=
        ⟨start, inFlight positions pairs, final, movement positions connectors, flags⟩
      if isBalanced particles metropolis rule then some rule else none

/-- A rule and the same rule running backwards count as one; the first found stays. -/
def addRule (rules : List Rule) (rule : Rule) : List Rule :=
  if rules.any (fun known => known = rule ∨ known.Undoes rule) then rules
  else rules ++ [rule]

def candidates (particles : List Particle) (positions : List PositionOffer)
    (connectors : List Connector) (metropolis : Bool) : List Rule :=
  (choices (positions.map (·.pairs))).flatMap fun pairs =>
    (choices (pairs.map fun p => [p.donor, p.acceptor])).filterMap
      (candidate particles positions connectors metropolis pairs)

end Generate

/-- The rules of a path. Lists that do not fit together, or are too long, have none. -/
def pathRules (particles : List Particle) (positions : List PositionOffer)
    (connectors : List Connector) (metropolis : Bool) : List Rule :=
  if positions.length ≠ connectors.length + 1 ∨ pathLimit < positions.length then []
  else (Generate.candidates particles positions connectors metropolis).foldl Generate.addRule []

end CrystalModel
