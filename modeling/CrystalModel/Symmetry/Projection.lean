import CrystalModel.Symmetry.Group

/-! # Site symmetry and symmetry images of point sequences

Operations that keep a position in place up to a lattice vector, and what they and the
whole group make of point sequences. Results are listed by first discovery. -/
namespace CrystalModel.Symmetry

/-- The operation, corrected by a lattice vector, if it carries `source` onto
`target`. -/
def carrying? (s : Symmetry) (source target : Point) (op : Operation) : Option Operation :=
  let image := op.apply source
  let shift := Fractional.latticeVector (target - image)
  if s.tolerance.isZeroPoint (target - image - shift) then some (op.shifted shift) else none

/-- The operations that keep `position` in place. -/
def siteOperations (s : Symmetry) (position : Point) : List Operation :=
  s.group.operations.filterMap (s.carrying? position position)

/-- The first operation that carries `source` onto `target`. -/
def operationBetween (s : Symmetry) (source target : Point) : Option Operation :=
  s.group.operations.findSome? (s.carrying? source target)

/-- Keeps of each class of similar elements the first one. -/
def firsts {α : Type} (similar : α → α → Bool) (xs : List α) : List α :=
  xs.foldl (fun known x => if known.any (similar · x) then known else known ++ [x]) []

/-- The images of `points` under the site symmetry of `origin`, one per point set. -/
def sequenceImages (s : Symmetry) (origin : Point) (points : List Point) : List (List Point) :=
  firsts s.tolerance.closeSets ((s.siteOperations origin).map (·.applyAll points))

/-- The permutations of `points` under the site symmetry of `origin`; entry `i` tells onto
which point the operation carries point `i`. -/
def sitePermutations (s : Symmetry) (origin : Point) (points : List Point) : List (List Nat) :=
  firsts (· == ·) ((s.siteOperations origin).filterMap fun op =>
    points.mapM fun point => s.tolerance.placeOf points (op.apply point))

def pathImage (s : Symmetry) (path : List Point) (start : Point) (op : Operation) : List Point :=
  let shift := -Fractional.ofOffset (Fractional.cellOf s.tolerance (op.apply start))
  path.map fun point => op.apply point + shift

/-- All images of an ordered path that start in the origin cell. -/
def pathImages (s : Symmetry) (path : List Point) : List (List Point) :=
  match path with
  | [] => []
  | start :: _ =>
    firsts s.tolerance.closeSequences (s.group.operations.map (s.pathImage path start))

end CrystalModel.Symmetry
