import CrystalModel.Store.Detection
import CrystalModel.Store.Resolution

/-! # The store of reference data

Changes go through the store. A change is taken over with everything that resolves its conflicts,
or not at all. -/
namespace CrystalModel

structure DataStore where
  data : ReferenceData
  pipeline : Pipeline
  tolerance : Tolerance

namespace DataStore

/-- The data after a change and the resolution of its conflicts. -/
def changed (s : DataStore) (change : DataChange) :
    Except BuildError (ReferenceData × ResolutionReport) := do
  let edited ← change.apply s.data
  let conflicts ← (change.conflicts edited s.tolerance).mapError .symmetry
  let (resolved, report) := s.pipeline.resolve edited conflicts
  if report.unresolved.isEmpty then return (resolved, report)
  else .error (.unresolved report.unresolved)

/-- Applies a change; when it fails the data stay as they are. -/
def apply (s : DataStore) (change : DataChange) :
    Except Failure ResolutionReport × DataStore :=
  match s.changed change with
  | .ok (data, report) => (.ok report, { s with data })
  | .error error => (.error ⟨error, []⟩, s)

end DataStore

end CrystalModel
