import CrystalModel.Binary.Shown
import CrystalModel.Build.Pass
import CrystalModel.Document.Json
import CrystalModel.Energy.Shown
import CrystalModel.Path.Midpoint
import CrystalModel.Proofs.Binary.Blob
import CrystalModel.Proofs.Binary.Codec
import CrystalModel.Proofs.Binary.Record
import CrystalModel.Proofs.Binary.Table
import CrystalModel.Proofs.Binary.Verification
import CrystalModel.Proofs.Build.Isolation
import CrystalModel.Proofs.Build.Pass
import CrystalModel.Proofs.Build.Verification
import CrystalModel.Proofs.Energy.Admission
import CrystalModel.Proofs.Energy.Build
import CrystalModel.Proofs.Energy.Center
import CrystalModel.Proofs.Energy.Classes
import CrystalModel.Proofs.Energy.Drift
import CrystalModel.Proofs.Energy.Lookup
import CrystalModel.Proofs.Energy.Occupation
import CrystalModel.Proofs.Energy.Table
import CrystalModel.Proofs.Energy.Transposition
import CrystalModel.Proofs.Fallible
import CrystalModel.Proofs.Geometry.Encoder
import CrystalModel.Proofs.Geometry.Fractional
import CrystalModel.Proofs.Geometry.Position
import CrystalModel.Proofs.Geometry.Recovery
import CrystalModel.Proofs.Geometry.Thinning
import CrystalModel.Proofs.Numeric.Arithmetic
import CrystalModel.Proofs.Numeric.Ascending
import CrystalModel.Proofs.Numeric.Double
import CrystalModel.Proofs.Numeric.Fraction
import CrystalModel.Proofs.Numeric.Rounding
import CrystalModel.Proofs.Output.Build
import CrystalModel.Proofs.Output.Count
import CrystalModel.Proofs.Output.Integrity
import CrystalModel.Proofs.Output.Key
import CrystalModel.Proofs.Output.Lattice
import CrystalModel.Proofs.Output.Ring
import CrystalModel.Proofs.Path.Ring
import CrystalModel.Proofs.Places
import CrystalModel.Proofs.Reference.Validation
import CrystalModel.Proofs.Removal.Build
import CrystalModel.Proofs.Removal.Data
import CrystalModel.Proofs.Removal.Path
import CrystalModel.Proofs.Removal.Structure
import CrystalModel.Proofs.Removal.Transition
import CrystalModel.Proofs.Rule.Completeness
import CrystalModel.Proofs.Rule.Conservation
import CrystalModel.Proofs.Rule.Displacement
import CrystalModel.Proofs.Rule.Enumeration
import CrystalModel.Proofs.Rule.Exchanges
import CrystalModel.Proofs.Rule.Inversion
import CrystalModel.Proofs.Rule.Pairing
import CrystalModel.Proofs.Rule.Toggling
import CrystalModel.Proofs.Rule.Trackers
import CrystalModel.Proofs.Rule.Unstable
import CrystalModel.Proofs.Simulation.Build
import CrystalModel.Proofs.Simulation.Deprecated
import CrystalModel.Proofs.Simulation.Index
import CrystalModel.Proofs.Simulation.JumpTable
import CrystalModel.Proofs.Simulation.Repetition
import CrystalModel.Proofs.Simulation.Selection
import CrystalModel.Proofs.Simulation.Undo
import CrystalModel.Proofs.Sink.Agreement
import CrystalModel.Proofs.Sink.Rollback
import CrystalModel.Proofs.Store.Account
import CrystalModel.Proofs.Store.Change
import CrystalModel.Proofs.Store.Detection
import CrystalModel.Proofs.Store.Fixpoint
import CrystalModel.Proofs.Store.History
import CrystalModel.Proofs.Store.Redundancy
import CrystalModel.Proofs.Store.References
import CrystalModel.Proofs.Store.Report
import CrystalModel.Proofs.Structure.Build
import CrystalModel.Proofs.Structure.Buildable
import CrystalModel.Proofs.Structure.Classes
import CrystalModel.Proofs.Structure.Expansion
import CrystalModel.Proofs.Structure.Group
import CrystalModel.Proofs.Structure.Pair
import CrystalModel.Proofs.Structure.Position
import CrystalModel.Proofs.Structure.Reciprocity
import CrystalModel.Proofs.Structure.Views
import CrystalModel.Proofs.Symmetry.Dictionary
import CrystalModel.Proofs.Symmetry.Identity
import CrystalModel.Proofs.Symmetry.Literal
import CrystalModel.Proofs.Symmetry.Projection
import CrystalModel.Proofs.Transition.Build
import CrystalModel.Proofs.Transition.Buildable
import CrystalModel.Proofs.Transition.Draft
import CrystalModel.Proofs.Transition.Indices
import CrystalModel.Proofs.Transition.Inverse
import CrystalModel.Proofs.Transition.Link
import CrystalModel.Proofs.Transition.Particles
import CrystalModel.Proofs.Transition.Repetition
import CrystalModel.Proofs.Transition.Ring
import CrystalModel.Proofs.Transition.Rules
import CrystalModel.Proofs.Transition.Trackers
import CrystalModel.Reference.Reading
import CrystalModel.Simulation.Shown
import CrystalModel.Sink.Directory
import CrystalModel.Sink.Memory
import CrystalModel.Store.Basic
import CrystalModel.Store.Shown
import CrystalModel.Structure.Shown
import CrystalModel.Transition.Shown
