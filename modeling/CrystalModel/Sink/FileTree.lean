import CrystalModel.Binary.LittleEndian

/-! # File trees

Files and directories by their places. A path is a way through the tree, along which every name
but the last has to be a directory; the place is where it ends. An operation that is not possible
is none, and changes nothing; only directories are made as far as possible. -/
namespace CrystalModel

open Binary (Bytes)

/-- The size in bytes of the path of the root, which depends on where a program writes. All
definitions take it as it is. -/
class RootDirectory where
  size : Nat

/-- The root of a program that writes to a temporary directory. -/
instance : RootDirectory := ⟨15⟩

/-- The names on the way from the root, which itself has none. Two points lead one directory up;
one point, and an empty name, stay. -/
abbrev FilePath := List String

inductive FileNode where
  | directory
  | file (bytes : Bytes)
deriving DecidableEq, Repr

/-- Every node by its place. A place has names only, unless it lies outside of the root; then its
path begins with two points. -/
abbrev FileTree := List (FilePath × FileNode)

namespace FilePath

def up (place : FilePath) : FilePath :=
  if place.all (· == "..") then place ++ [".."] else place.dropLast

def stays (name : String) : Bool := name.isEmpty || name == "."

def longestName : Nat := 255

def longestPath : Nat := 4095

def isName (name : String) : Bool := name.utf8ByteSize ≤ longestName

/-- A path that is too long, or holds a null character, leads nowhere. -/
def isUsable [root : RootDirectory] (path : FilePath) : Bool :=
  !path.any (·.toList.contains '\x00') &&
    root.size + 1 + ("/".intercalate path).utf8ByteSize ≤ longestPath

def parent (path : FilePath) : FilePath := (path.dropLast.reverse.dropWhile stays).reverse

end FilePath

namespace FileTree

def empty : FileTree := []

def node? (t : FileTree) (place : FilePath) : Option FileNode :=
  if place.all (· == "..") then some .directory else t.lookup place

def isDirectory (t : FileTree) (place : FilePath) : Bool := t.node? place == some .directory

def remove (t : FileTree) (place : FilePath) : FileTree := t.filter (·.1 != place)

def put (t : FileTree) (place : FilePath) (node : FileNode) : FileTree :=
  (place, node) :: t.remove place

/-- Where a path ends that begins at `here`. Its last name need not be there. -/
def walk (t : FileTree) (here : FilePath) : List String → Option FilePath
  | [] => some here
  | name :: rest =>
    if !t.isDirectory here then none
    else if FilePath.stays name then walk t here rest
    else if name == ".." then walk t (FilePath.up here) rest
    else if FilePath.isName name then walk t (here ++ [name]) rest
    else none

variable [RootDirectory]

def locate (t : FileTree) (path : FilePath) : Option FilePath :=
  if FilePath.isUsable path then t.walk [] path else none

def file? (t : FileTree) (path : FilePath) : Option Bytes := do
  match t.node? (← t.locate path) with
  | some (.file bytes) => some bytes
  | _ => none

/-- Makes the directories that a path passes, up to one that cannot be made, and tells whether
all of them are there. A directory with a point behind it in the end is not made. -/
def pave (t : FileTree) (here : FilePath) : List String → Bool × FileTree
  | [] => (true, t)
  | name :: rest =>
    if FilePath.stays name then pave t here rest
    else if name == ".." then pave t (FilePath.up here) rest
    else
      let next := here ++ [name]
      match t.node? next with
      | some .directory => pave t next rest
      | some (.file _) => (false, t)
      | none =>
        if !FilePath.isName name || (rest.contains "." && rest.all FilePath.stays) then (false, t)
        else pave (t.put next .directory) next rest

def createDirectories (t : FileTree) (path : FilePath) : Bool × FileTree :=
  if FilePath.isUsable path then t.pave [] path else (false, t)

def putFile (t : FileTree) (place : FilePath) (bytes : Bytes) : Option FileTree :=
  if t.isDirectory place then none else some (t.put place (.file bytes))

def write (t : FileTree) (path : FilePath) (bytes : Bytes) : Option FileTree := do
  t.putFile (← t.locate path) bytes

/-- Moves a file, over an older file if there is one. -/
def rename (t : FileTree) (source target : FilePath) : Option FileTree := do
  let bytes ← t.file? source
  let place ← t.locate target
  (t.remove (← t.locate source)).putFile place bytes

def removeFile (t : FileTree) (path : FilePath) : FileTree :=
  match t.file? path, t.locate path with
  | some _, some place => t.remove place
  | _, _ => t

def removeDirectory (t : FileTree) (place : FilePath) : FileTree :=
  if t.isDirectory place then t.filter (!place.isPrefixOf ·.1) else t

/-- A place in writing, that of a directory with a slash at its end. -/
def placeText (place : FilePath) (node : FileNode) : String :=
  "/".intercalate place ++ if node = .directory then "/" else ""

def listing (t : FileTree) : List String :=
  ((t.filter fun (place, _) => place.head? != some "..").map fun (place, node) =>
    placeText place node).mergeSort

end FileTree

end CrystalModel
