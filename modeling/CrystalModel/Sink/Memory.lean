import CrystalModel.Sink.Basic

/-! # Sinks in memory -/
namespace CrystalModel

open Binary (Bytes)

/-- Committed and staged entries: header and payload by key. -/
structure MemorySink where
  entries : Catalog (Bytes × Bytes)
  pending : Catalog (Bytes × Bytes)
deriving DecidableEq, Repr

namespace MemorySink

def empty : MemorySink := ⟨.empty, .empty⟩

def store (s : MemorySink) (key : String) (header payload : Bytes) : MemorySink :=
  { s with pending := Catalog.insert key (header, payload) s.pending }

def commit (s : MemorySink) : MemorySink := ⟨s.entries.merge s.pending, .empty⟩

def abort (s : MemorySink) : MemorySink := { s with pending := .empty }

instance : Sink MemorySink where
  store s key header payload := (.ok (), s.store key header payload)
  commit s := (.ok (), s.commit)
  abort s := s.abort

end MemorySink

end CrystalModel
