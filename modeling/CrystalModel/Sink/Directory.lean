import CrystalModel.Sink.Basic
import CrystalModel.Sink.FileTree
import CrystalModel.Text.Listing

/-! # Sinks in directories

Every blob is one file. Blobs are staged in a directory of their own, and moved into place by a
commit. When a move fails, the files that were moved before it are removed. -/
namespace CrystalModel

open Binary (Bytes)

/-- The file tree below the root, and the staged keys in the order of their storing. -/
structure DirectorySink where
  files : FileTree
  staged : List String
deriving DecidableEq, Repr

namespace DirectorySink

variable [RootDirectory]

def ofTree (files : FileTree) : DirectorySink := ⟨files, []⟩

def stagingArea : FilePath := [".staging"]

def names (path : String) : FilePath := (Text.fields '/' path.toList).map String.ofList

def target (key : String) : FilePath := names (key ++ ".bin")

def stagedTarget (key : String) : FilePath := stagingArea ++ target key

def dropStaged (s : DirectorySink) : DirectorySink :=
  ⟨s.files.removeDirectory stagingArea, []⟩

def store (s : DirectorySink) (key : String) (header payload : Bytes) :
    SinkStep DirectorySink :=
  match s.files.createDirectories (stagedTarget key).parent with
  | (false, files) => (.error ⟨key⟩, { s with files })
  | (true, files) =>
    match files.write (stagedTarget key) (header ++ payload) with
    | none => (.error ⟨key⟩, { s with files })
    | some files => (.ok (), ⟨files, s.staged ++ [key]⟩)

/-- Moves one staged file into place. The directories above it are made first, and stay even if
the move fails. -/
def publish (files : FileTree) (key : String) : SinkStep FileTree :=
  match files.createDirectories (target key).parent with
  | (false, files) => (.error ⟨key⟩, files)
  | (true, files) =>
    match files.rename (stagedTarget key) (target key) with
    | none => (.error ⟨key⟩, files)
    | some files => (.ok (), files)

/-- Publishes the keys in their order; after a failure removes what has been published. -/
def publishAll (files : FileTree) (published : List String) :
    List String → SinkStep FileTree
  | [] => (.ok (), files)
  | key :: rest =>
    match publish files key with
    | (.ok (), files) => publishAll files (published ++ [key]) rest
    | (.error failure, files) =>
      (.error failure, published.foldl (fun files key => files.removeFile (target key)) files)

def commit (s : DirectorySink) : SinkStep DirectorySink :=
  match publishAll s.files [] s.staged with
  | (outcome, files) => (outcome, dropStaged { s with files })

instance : Sink DirectorySink where
  store := store
  commit := commit
  abort := dropStaged

end DirectorySink

end CrystalModel
