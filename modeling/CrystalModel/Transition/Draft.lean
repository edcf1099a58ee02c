import CrystalModel.Rule.Displacement
import CrystalModel.Structure.Model
import CrystalModel.Transition.Exchange
import CrystalModel.Transition.Model

/-! # Drafts of transition models

The paths and rules of a transition before they are numbered and linked to their inverses. -/
namespace CrystalModel

variable [Trigonometry]

/-- A path as points and as lattice positions, with the movement of each particle. -/
structure PathDraft where
  path : List CrystalVector
  fractional : List Point
  movement : List Point
deriving DecidableEq, Repr

structure DraftTransition where
  kind : SimulationKind
  reference : Nat
  abstractTransition : Nat
  frequency : Float
  connectors : List Connector
  unstable : List Bool
  mappings : List PathDraft
  rules : List Rule
deriving DecidableEq, Repr

/-- How far along the path each particle moves. Between sites without a path nothing moves. -/
def pathOffsets (kind : SimulationKind) (connectors : List Connector)
    (unstable : List Bool) : List Int :=
  match kind with
  | .kinetic => pathDisplacements connectors unstable
  | .metropolis => List.replicate (connectors.length + 1) 0

namespace PathDraft

/-- The way in space from path position `i` to the one that is `offset` further along. -/
def movementAt (e : Encoder) (points : List Point) (i : Nat) (offset : Int) : Option Point :=
  if (i : Int) + offset < 0 then none
  else do
    let start ← points[i]?
    let target ← points[(i + offset).toNat]?
    return e.cell.cartesian (target - start)

/-- The draft of a path of points; none when it leaves the lattice. -/
def ofPoints (e : Encoder) (offsets : List Int) (points : List Point) : Option PathDraft := do
  let path ← e.encodeAll points
  let movement ← (List.range points.length).mapM fun i =>
    movementAt e points i (offsets[i]?.getD 0)
  return ⟨path, points, movement⟩

/-- The same path from its other end, moved into the origin cell. -/
def reversed (m : PathDraft) (e : Encoder) (offsets : List Int) : Option PathDraft := do
  let last ← m.path.getLast?
  let shift := Fractional.ofOffset (-last.cell)
  ofPoints e offsets (m.fractional.reverse.map (· + shift))

end PathDraft

def DraftTransition.reversed (d : DraftTransition) (e : Encoder) : Option DraftTransition := do
  let connectors := d.connectors.reverse
  let unstable := d.unstable.reverse
  let offsets := pathOffsets d.kind connectors unstable
  let mappings ← d.mappings.mapM (·.reversed e offsets)
  return { d with connectors, unstable, mappings, rules := d.rules.map (·.inverted) }

/-- The rules of a path, each beside the same rule running backwards. -/
def exchangeRules (r : ReferenceData) (a : AbstractTransition) (states : List PositionOffer)
    (metropolis : Bool) : List Rule :=
  bothWays (pathRules r.particles states a.connectors metropolis)

end CrystalModel
