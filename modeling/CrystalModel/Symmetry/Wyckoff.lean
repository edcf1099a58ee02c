import CrystalModel.Symmetry.Group

/-! # Wyckoff dictionaries

The images of a position under a space group, each with the operations that lead to it. Images
are listed by first discovery, the source itself in front. -/
namespace CrystalModel

structure Image where
  position : Point
  operations : List Nat
deriving DecidableEq, Repr

structure Wyckoff where
  source : Point
  images : List Image
deriving DecidableEq, Repr

namespace Wyckoff

def siteOrder (w : Wyckoff) : Nat :=
  match w.images with
  | [] => 0
  | first :: _ => first.operations.length

def positions (w : Wyckoff) : List Point := w.images.map (·.position)

end Wyckoff

def addImage (t : Tolerance) (position : Point) (index : Nat) : List Image → List Image
  | [] => [⟨position, [index]⟩]
  | image :: rest =>
    if t.closePoints image.position position then
      { image with operations := image.operations ++ [index] } :: rest
    else image :: addImage t position index rest

def moveFront {α : Type} (p : α → Bool) (xs : List α) : List α :=
  match xs.find? p with
  | some x => x :: xs.eraseP p
  | none => xs

namespace Symmetry

def dictionary (s : Symmetry) (position : Point) : Wyckoff :=
  let source := Fractional.trimPoint s.tolerance position
  let images := s.group.operations.zipIdx.foldl
    (fun images (op, index) =>
      addImage s.tolerance (op.applyInCell s.tolerance source) index images) []
  ⟨source, moveFront (fun image => s.tolerance.closePoints image.position source) images⟩

def orbit (s : Symmetry) (position : Point) : List Point :=
  (s.dictionary position).positions

end Symmetry

end CrystalModel
