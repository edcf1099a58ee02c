import CrystalModel.Geometry.Vector

/-! # Comparison within a tolerance

Two numbers whose distance does not exceed the tolerance compare as equal. The relation is
reflexive on finite numbers and symmetric, but not transitive. Points are compared coordinate by
coordinate; the first coordinate that differs decides. -/
namespace CrystalModel

structure Tolerance where
  width : Float
deriving DecidableEq, Repr

namespace Tolerance

/-- The sign of the given width does not matter. -/
def ofWidth (width : Float) : Tolerance := ⟨width.abs⟩

/-- The width that geometry is compared with unless another is asked for. -/
def standard : Tolerance := ofWidth 1.0e-6

/-- Numbers that are neither close nor ordered, such as NaN, compare as greater. -/
def compare (t : Tolerance) (a b : Float) : Ordering :=
  if (a - b).abs ≤ t.width then .eq
  else if a - b < 0.0 then .lt
  else .gt

def close (t : Tolerance) (a b : Float) : Bool := t.compare a b == .eq

def isZero (t : Tolerance) (a : Float) : Bool := a.abs ≤ t.width

def comparePoints (t : Tolerance) (a b : Point) : Ordering :=
  ((t.compare a.x b.x).then (t.compare a.y b.y)).then (t.compare a.z b.z)

def closePoints (t : Tolerance) (a b : Point) : Bool := t.comparePoints a b == .eq

def isZeroPoint (t : Tolerance) (a : Point) : Bool := a.all t.isZero

/-- The first place of a point close to `a`. -/
def placeOf (t : Tolerance) (points : List Point) (a : Point) : Option Nat :=
  points.findIdx? (t.closePoints · a)

def hasPoint (t : Tolerance) (points : List Point) (a : Point) : Bool :=
  (t.placeOf points a).isSome

def closeSequences (t : Tolerance) (as bs : List Point) : Bool :=
  as.length == bs.length && (as.zip bs).all fun (a, b) => t.closePoints a b

/-- Equally many points, each of either list close to one of the other. -/
def closeSets (t : Tolerance) (as bs : List Point) : Bool :=
  as.length == bs.length && as.all (t.hasPoint bs) && bs.all (t.hasPoint as)

end Tolerance

end CrystalModel
