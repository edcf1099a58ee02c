import CrystalModel.Build.Error
import CrystalModel.Simulation.Model

/-! # The jump index

Lists, for every position and every particle, the directions that start there and that the
particle can take, in the order of the directions. The lists are laid out in one buffer, in which
every one of them has places for the longest one. -/
namespace CrystalModel

/-- Whether the mask has the bit of a particle. Nothing is open to the void particle. -/
def canStart (mask : UInt64) (particle : Nat) : Bool :=
  particle != voidIndex && mask &&& (1 <<< UInt64.ofNat particle) != 0

namespace JumpIndex

structure Entry where
  id : Nat
  position : Nat
  mask : UInt64
deriving DecidableEq, Repr

/-- Adds a direction to the lists of the particles that can take it. -/
def enter (lists : List (List (List Int32))) (e : Entry) : List (List (List Int32)) :=
  lists.modify e.position (·.mapIdx fun particle ids =>
    if canStart e.mask particle then ids ++ [Int32.ofNat e.id] else ids)

def listsOf (particleCount positionTotal : Nat) (entries : List Entry) :
    List (List (List Int32)) :=
  entries.foldl enter (List.replicate positionTotal (List.replicate particleCount []))

def widthOf (lists : List (List (List Int32))) : Nat :=
  lists.flatten.foldl (fun width ids => max width ids.length) 1

def blank (particleCount positionTotal width : Nat) : JumpIndex where
  particleCount
  maxDirections := width
  counts := List.replicate positionTotal (List.replicate particleCount 0)
  assignments := List.replicate (positionTotal * particleCount * width) (-1)
  mobilities := List.replicate positionTotal (List.replicate particleCount .immobile)
  selectionMasks := List.replicate positionTotal 0

/-- Where the places of a particle on a position begin. -/
def place (index : JumpIndex) (position particle : Nat) : Nat :=
  (position * index.particleCount + particle) * index.maxDirections

def overwrite (buffer : List Int32) (place : Nat) (ids : List Int32) : List Int32 :=
  buffer.take place ++ ids ++ buffer.drop (place + ids.length)

def isVacancy (particles : List Particle) (particle : Nat) : Bool :=
  (particles[particle]?.map (·.isVacancy)).getD false

/-- Enters the list of one particle on one position. Vacancies move, but are not selected. -/
def fill (particles : List Particle) (index : JumpIndex) :
    Nat × Nat × List Int32 → JumpIndex
  | (position, particle, ids) =>
    let index := { index with
      counts := index.counts.modify position (·.set particle (Int32.ofNat ids.length))
      assignments := overwrite index.assignments (index.place position particle) ids }
    if ids.isEmpty then index
    else if isVacancy particles particle then
      { index with mobilities := index.mobilities.modify position (·.set particle .mobile) }
    else { index with
      mobilities := index.mobilities.modify position (·.set particle .selectable)
      selectionMasks :=
        index.selectionMasks.modify position (· ||| (1 <<< UInt64.ofNat particle)) }

/-- All lists with their positions and particles, row by row. -/
def cells (lists : List (List (List Int32))) : List (Nat × Nat × List Int32) :=
  lists.zipIdx.flatMap fun (row, position) =>
    row.zipIdx.map fun (ids, particle) => (position, particle, ids)

def ofEntries (particles : List Particle) (positionTotal : Nat) (entries : List Entry) :
    JumpIndex :=
  let lists := listsOf particles.length positionTotal entries
  (cells lists).foldl (fill particles) (blank particles.length positionTotal (widthOf lists))

def cell? {α : Type} (table : List (List α)) (row column : Nat) : Option α :=
  table[row]?.bind (·[column]?)

def count (index : JumpIndex) (position particle : Nat) : Int32 :=
  (cell? index.counts position particle).getD 0

/-- The places of a particle on a position. -/
def assigned (index : JumpIndex) (position particle : Nat) : List Int32 :=
  (index.assignments.drop (index.place position particle)).take index.maxDirections

/-- Every count is the number of directions assigned in its row. -/
def verify (index : JumpIndex) : Except BuildError Unit :=
  (List.range index.counts.length).forM fun position =>
    (List.range index.particleCount).forM fun particle =>
      if ((index.assigned position particle).countP (0 ≤ ·) : Int) =
          (index.count position particle).toInt then .ok ()
      else .error (.defect (.jumpCount position particle))

end JumpIndex

end CrystalModel
