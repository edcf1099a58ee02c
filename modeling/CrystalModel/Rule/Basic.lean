import CrystalModel.Binary.LittleEndian
import CrystalModel.Reference.Particle

/-! # Rules

A rule is an occupation change along a path: the particles before, during and after it, and
the exchanges that carry it out. States hold a byte per path position. -/
namespace CrystalModel

def pathLimit : Nat := 8

abbrev PathState := List UInt8

def voidByte : UInt8 := UInt8.ofNat voidIndex

/-- The state as a 64-bit word, the first position in the lowest byte. -/
def stateCode (state : PathState) : Int64 :=
  Int64.ofNat (Binary.value (state.take pathLimit))

structure RuleFlags where
  bits : UInt32
deriving DecidableEq, Repr

namespace RuleFlags

def none : RuleFlags := ⟨0⟩

def exchange : RuleFlags := ⟨1⟩

def migration : RuleFlags := ⟨2⟩

/-- A static connector moves a group of particles as one. -/
def vehicle : RuleFlags := ⟨4⟩

def chained : RuleFlags := ⟨8⟩

def vacancy : RuleFlags := ⟨16⟩

def union (f g : RuleFlags) : RuleFlags := ⟨f.bits ||| g.bits⟩

def contains (f g : RuleFlags) : Bool := f.bits &&& g.bits == g.bits

end RuleFlags

/-- The movement lists the exchanged path positions two by two. -/
structure Rule where
  start : PathState
  transition : PathState
  final : PathState
  movement : List Nat
  flags : RuleFlags
deriving DecidableEq, Repr

/-- Neighbours two by two; an odd last element is dropped. -/
def pairUp {α : Type} : List α → List (α × α)
  | a :: b :: rest => (a, b) :: pairUp rest
  | _ => []

/-- Swaps two places of a list; places outside change nothing. -/
def swapPlaces {α : Type} (xs : List α) (i j : Nat) : List α :=
  match xs[i]?, xs[j]? with
  | some x, some y => (xs.set i y).set j x
  | _, _ => xs

namespace Rule

def length (r : Rule) : Nat := r.start.length

def exchanges (r : Rule) : List (Nat × Nat) := pairUp r.movement

/-- The rule running backwards on the same path. -/
def swapped (r : Rule) : Rule := { r with start := r.final, final := r.start }

/-- The rule running backwards, seen from the other end of the path. -/
def inverted (r : Rule) : Rule where
  start := r.final.reverse
  transition := r.transition.reverse
  final := r.start.reverse
  movement := r.movement.reverse.map (r.length - 1 - ·)
  flags := r.flags

def Undoes (r s : Rule) : Prop := r.start = s.final ∧ r.final = s.start

instance (r s : Rule) : Decidable (r.Undoes s) :=
  inferInstanceAs (Decidable (_ ∧ _))

/-- Entry `i` is the path position whose particle ends on position `i`. -/
def origins (r : Rule) : List Nat :=
  r.exchanges.foldl (fun order (i, j) => swapPlaces order i j) (List.range r.length)

/-- The end index less the start index of the particle that ends on each position. -/
def displacements (r : Rule) : List Int :=
  r.origins.zipIdx.map fun (origin, i) => (origin : Int) - i

/-- The origins as eight bytes. -/
def trackerBytes (r : Rule) : List UInt8 :=
  let bytes := (r.origins.take pathLimit).map UInt8.ofNat
  bytes ++ List.replicate (pathLimit - bytes.length) 0

end Rule

end CrystalModel
