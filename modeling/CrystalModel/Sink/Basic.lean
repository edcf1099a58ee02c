import CrystalModel.Binary.BlobSet

/-! # Sinks

Destinations of finished blobs. Stored blobs are staged until a commit publishes all of them;
an abort drops what has been staged since the last commit. -/
namespace CrystalModel

open Binary (Bytes)

/-- The key at which a sink has failed. -/
structure SinkFailure where
  key : String
deriving DecidableEq, Repr

/-- How a call ended, and the sink after it. A failed call may leave traces. -/
abbrev SinkStep (σ : Type) := Except SinkFailure Unit × σ

class Sink (σ : Type) where
  store : σ → String → Bytes → Bytes → SinkStep σ
  commit : σ → SinkStep σ
  abort : σ → σ

namespace Sink

variable {σ : Type} [Sink σ]

def storeAll (s : σ) : Binary.BlobSet → SinkStep σ
  | [] => (.ok (), s)
  | (key, blob) :: rest =>
    match store s key blob.header.toBytes blob.payload with
    | (.ok (), s) => storeAll s rest
    | (.error failure, s) => (.error failure, s)

def publish (s : σ) : List Binary.BlobSet → SinkStep σ
  | [] => commit s
  | set :: rest =>
    match storeAll s set with
    | (.ok (), s) => publish s rest
    | (.error failure, s) => (.error failure, s)

end Sink

end CrystalModel
