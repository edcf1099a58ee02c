/-! # Vectors and matrices in three dimensions

Sums and products are evaluated from left to right, in the order in which they are written
here; no step is fused. -/
namespace CrystalModel

structure Vec3 (α : Type) where
  x : α
  y : α
  z : α
deriving DecidableEq, Repr

abbrev Point := Vec3 Float

abbrev CellOffset := Vec3 Int32

namespace Vec3

variable {α β γ : Type}

def map (f : α → β) (v : Vec3 α) : Vec3 β := ⟨f v.x, f v.y, f v.z⟩

def zipWith (f : α → β → γ) (v : Vec3 α) (w : Vec3 β) : Vec3 γ :=
  ⟨f v.x w.x, f v.y w.y, f v.z w.z⟩

def toList (v : Vec3 α) : List α := [v.x, v.y, v.z]

instance [Add α] : Add (Vec3 α) := ⟨zipWith (· + ·)⟩

instance [Sub α] : Sub (Vec3 α) := ⟨zipWith (· - ·)⟩

instance [Neg α] : Neg (Vec3 α) := ⟨map (- ·)⟩

def all (p : α → Bool) (v : Vec3 α) : Bool := p v.x && p v.y && p v.z

end Vec3

namespace Point

def zero : Point := ⟨0.0, 0.0, 0.0⟩

def scale (v : Point) (factor : Float) : Point := v.map (· * factor)

def dot (v w : Point) : Float := v.x * w.x + v.y * w.y + v.z * w.z

def norm (v : Point) : Float := (v.dot v).sqrt

/-- The vector of length one in the direction of `v`; none for vectors not longer than
`least`. -/
def direction? (v : Point) (least : Float) : Option Point :=
  if v.norm ≤ least then none else some (v.map (· / v.norm))

def sum (points : List Point) : Point := points.foldl (· + ·) zero

end Point

structure Mat3 where
  row1 : Point
  row2 : Point
  row3 : Point
deriving DecidableEq, Repr

namespace Mat3

def zero : Mat3 := ⟨Point.zero, Point.zero, Point.zero⟩

def identity : Mat3 := ⟨⟨1.0, 0.0, 0.0⟩, ⟨0.0, 1.0, 0.0⟩, ⟨0.0, 0.0, 1.0⟩⟩

def rows (m : Mat3) : List Point := [m.row1, m.row2, m.row3]

def mulVec (m : Mat3) (v : Point) : Point := ⟨m.row1.dot v, m.row2.dot v, m.row3.dot v⟩

def determinant (m : Mat3) : Float :=
  m.row1.x * (m.row2.y * m.row3.z - m.row3.y * m.row2.z) -
    m.row1.y * (m.row2.x * m.row3.z - m.row3.x * m.row2.z) +
    m.row1.z * (m.row2.x * m.row3.y - m.row3.x * m.row2.y)

end Mat3

end CrystalModel
