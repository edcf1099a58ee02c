import CrystalModel.Binary.Error
import CrystalModel.Geometry.Cell
import CrystalModel.Reference.Data
import CrystalModel.Store.Conflict
import CrystalModel.Symmetry.Error

/-! # Build errors

Everything that ends a build or refuses a change, with its wording, and the advisory issues
that travel beside a result. -/
namespace CrystalModel

inductive Stage where
  | validation
  | structural
  | energy
  | transition
  | simulation
  | encoding
  | persistence
deriving DecidableEq, Repr

def Stage.name : Stage → String
  | .validation => "validation"
  | .structural => "structure"
  | .energy => "energy"
  | .transition => "transition"
  | .simulation => "simulation"
  | .encoding => "translation"
  | .persistence => "persistence"

open Text (bracketed)

def listText (numbers : List Nat) : String := bracketed (numbers.map toString)

def sizeText (size : Vec3 Int32) : String :=
  bracketed (size.toList.map fun n => toString n.toInt)

inductive Fault where
  | storedAt (place : Nat)
  | voidMissing
  | tooManyParticles
  | nextFree (index : Nat)
  | noSuchObject
  | invalidCell (cell : Cell)
  | unknownParticleSet (set : Nat)
  | unknownSite (site : Nat)
  | noEnvironment (site : Nat)
  | positionOffSite (position : Point) (site : Nat)
  | partnerOffSite (partner : Point) (site : Nat)
  | partnersCoincide
  | partnerCount (count : Nat)
  | noSuchInteraction
  | unknownEntryParticle (center partner : Nat)
  | conflictingEnergies (known value : Float) (row column : Nat)
  | unknownCenterSite (site : Nat)
  | partnerOffLattice (partner : Point)
  | occupationLength (length partners : Nat)
  | forbiddenCenter (particle : Nat)
  | forbiddenOccupation (occupation : List Nat)
  | connectorCount (transition groups connectors : Nat)
  | unknownExchangeGroup (group : Nat)
  | siteWithoutSet (site : Nat)
  | unknownExchangePair (pair : Nat)
  | noFittingPair (group site : Nat)
  | unknownAbstract (transition : Nat)
  | noExchangeOnPath
  | noExchangeBetweenSites
  | notTwoPositions (transition : Nat)
  | unknownSimulation
  | latticeSize (size : Vec3 Int32)
  | temperature (value : Float)
  | unknownTransition (transition : Nat)
  | countTooLarge (what : String) (size : Vec3 Int32)
deriving DecidableEq, Repr

def Fault.message : Fault → String
  | .storedAt place => s!"stored at position {place}"
  | .voidMissing => "the particle list must start with the void particle"
  | .tooManyParticles => s!"at most {particleLimit} particles are supported"
  | .nextFree index => s!"new objects must take the next free index {index}"
  | .noSuchObject => "no such object"
  | .invalidCell cell => cell.text ++ " does not describe a valid unit cell"
  | .unknownParticleSet set => s!"unknown or deprecated particle set {set}"
  | .unknownSite site => s!"unknown or deprecated site {site}"
  | .noEnvironment site => s!"site {site} has no environment"
  | .positionOffSite position site =>
    "position " ++ position.text ++ s!" does not belong to site {site}"
  | .partnerOffSite partner site => "partner " ++ partner.text ++ s!" does not lie on site {site}"
  | .partnersCoincide => "center and partner coincide"
  | .partnerCount count => s!"{count} partners, expected 1 to 8"
  | .noSuchInteraction => "no such interaction"
  | .unknownEntryParticle center partner =>
    s!"entry ({center}, {partner}) references an unknown particle"
  | .conflictingEnergies known value row column =>
    "conflicting energies " ++ Numeric.plain known ++ " and " ++ Numeric.plain value ++
      s!" for entry ({row}, {column})"
  | .unknownCenterSite site => s!"unknown center site {site}"
  | .partnerOffLattice partner => "partner " ++ partner.text ++ " is not a lattice position"
  | .occupationLength length partners =>
    s!"occupation of length {length} for {partners} partners"
  | .forbiddenCenter particle => s!"particle {particle} cannot occupy the center"
  | .forbiddenOccupation occupation =>
    "occupation " ++ listText occupation ++ " is not allowed"
  | .connectorCount transition groups connectors =>
    s!"abstract transition {transition} has {groups} groups and {connectors} connectors"
  | .unknownExchangeGroup group => s!"unknown or deprecated exchange group {group}"
  | .siteWithoutSet site => s!"site {site} has no particle set"
  | .unknownExchangePair pair => s!"unknown or deprecated exchange pair {pair}"
  | .noFittingPair group site => s!"exchange group {group} has no pair that fits site {site}"
  | .unknownAbstract transition => s!"unknown abstract transition {transition}"
  | .noExchangeOnPath => "no particle exchange is possible along the path"
  | .noExchangeBetweenSites => "no particle exchange is possible between the sites"
  | .notTwoPositions transition =>
    s!"abstract transition {transition} is not a two-position exchange"
  | .unknownSimulation => "unknown or deprecated simulation"
  | .latticeSize size => "lattice size " ++ sizeText size ++ " is not positive"
  | .temperature value => "temperature " ++ Numeric.plain value ++ " is not positive"
  | .unknownTransition transition => s!"unknown transition {transition}"
  | .countTooLarge what size =>
    what ++ " of lattice " ++ sizeText size ++ " exceeds the 32-bit range"

/-- What does not hold of a model that is otherwise well authored. -/
inductive Defect where
  | overlap (site other position : Nat)
  | inconsistentIntermediates (interaction : Nat)
  | partnerWithoutPair (partner : Point) (interaction : Nat)
  | unreachablePosition (site position : Nat)
  | targetOffLattice (target : Point) (position : Nat)
  | classWithoutRepresentative (index : Nat)
  | classLacksRepresentative (index : Nat)
  | classWithMissingModel (index : Nat)
  | memberOfOtherClass (index found : Nat)
  | classNotClosed (index : Nat)
  | realizationOffLattice (transition : Nat)
  | noPairing (transition : Nat)
  | reversedOffLattice (transition : Nat)
  | partialInverse (transition linked count : Nat)
  | jumpCount (position particle : Nat)
deriving DecidableEq, Repr

namespace Defect

def stage : Defect → Stage
  | overlap .. => .structural
  | inconsistentIntermediates .. => .structural
  | partnerWithoutPair .. => .structural
  | unreachablePosition .. => .structural
  | targetOffLattice .. => .structural
  | classWithoutRepresentative .. => .structural
  | classLacksRepresentative .. => .structural
  | classWithMissingModel .. => .structural
  | memberOfOtherClass .. => .structural
  | classNotClosed .. => .structural
  | realizationOffLattice .. => .transition
  | noPairing .. => .transition
  | reversedOffLattice .. => .transition
  | partialInverse .. => .transition
  | jumpCount .. => .simulation

def message : Defect → String
  | overlap site other position =>
    s!"site {site} overlaps site {other} at position {position}"
  | inconsistentIntermediates interaction =>
    s!"group interaction {interaction} has inconsistent intermediate positions"
  | partnerWithoutPair partner interaction =>
    "partner " ++ partner.text ++ s!" of group interaction {interaction} has no pair interaction"
  | unreachablePosition site position =>
    s!"no operation maps site {site} onto position {position}"
  | targetOffLattice target position =>
    "pair target " ++ target.text ++ s!" of position {position} is not a lattice position"
  | classWithoutRepresentative index => s!"class {index} has no representative"
  | classLacksRepresentative index => s!"class {index} does not contain its representative"
  | classWithMissingModel index => s!"class {index} references a missing model"
  | memberOfOtherClass index found => s!"member of class {index} carries index {found}"
  | classNotClosed index => s!"class {index} is not closed"
  | realizationOffLattice transition =>
    s!"a realization of kinetic transition {transition} leaves the lattice"
  | noPairing transition => s!"metropolis transition {transition} has no position pairing"
  | reversedOffLattice transition =>
    s!"reversed paths of transition {transition} leave the lattice"
  | partialInverse transition linked count =>
    s!"transition {transition} links {linked} of {count} mappings to an inverse"
  | jumpCount position particle =>
    s!"jump count of ({position}, {particle}) does not match its assignments"

end Defect

inductive PathFault where
  | pointCount (points groups : Nat)
  | pathLength (length greatest : Nat)
  | offLattice
deriving DecidableEq, Repr

def PathFault.message : PathFault → String
  | .pointCount points groups => s!"{points} points for {groups} exchange groups"
  | .pathLength length greatest => s!"path length {length} is outside 2..={greatest}"
  | .offLattice => "a path point is not a lattice position"

inductive BuildError where
  | symmetry (error : SymmetryError)
  | missingContext (required requested : String)
  | defect (defect : Defect)
  | geometry (transition : Nat) (fault : PathFault)
  | ring (transition : Nat)
  | format (error : Binary.FormatError)
  | sink (key : String)
  | invalid (domain : Domain) (index : Nat) (fault : Fault)
  | unresolved (conflicts : List Conflict)
  | unencodedPair (first second : Nat)
  | emptyClass (domain : Domain) (index : Nat)
deriving DecidableEq, Repr

namespace BuildError

def message : BuildError → String
  | symmetry error => "Space group error: " ++ error.message
  | missingContext required requested =>
    s!"The \x27{requested}\x27 context requires the \x27{required}\x27 context, " ++
      "which has not been built"
  | defect d => "Structural defect during \x27" ++ d.stage.name ++ "\x27: " ++ d.message
  | geometry transition fault =>
    s!"Invalid geometry for transition {transition}: " ++ fault.message
  | ring transition => s!"Transition {transition} describes a ring path"
  | format error => "Binary contract violation: " ++ error.message
  | sink key => "Failed to persist binary output: " ++ key
  | invalid domain index fault =>
    "Invalid " ++ domain.name ++ s!" {index}: " ++ fault.message
  | unresolved conflicts =>
    "Unresolved conflict: " ++ Text.joined "; " (conflicts.map Conflict.text)
  | unencodedPair first second =>
    s!"Internal logic error: position {first} or {second} failed to encode"
  | emptyClass domain index =>
    "Internal logic error: " ++ domain.name ++ s!" {index} has no image of its own"

end BuildError

/-- How a build failed: an authored object is unusable, a change meets a conflict that nothing
resolves, or something that has to hold does not. -/
inductive Tier where
  | validation
  | conflict
  | fatal
deriving DecidableEq, Repr

def BuildError.tier : BuildError → Tier
  | .invalid .. => .validation
  | .unresolved .. => .conflict
  | _ => .fatal

inductive Remark where
  | deprecatedParticle (particle : Nat)
  | noTransitions
  | noField
  | deprecatedTransition (transition : Nat)
  | generatedSeed (seed : UInt64)
deriving DecidableEq, Repr

def Remark.text : Remark → String
  | .deprecatedParticle particle => s!"deprecated particle {particle} is ignored"
  | .noTransitions => "no transitions selected"
  | .noField => "kinetic simulation without electric field"
  | .deprecatedTransition transition => s!"deprecated transition {transition} is skipped"
  | .generatedSeed seed => s!"unset seed replaced with generated seed {seed.toNat}"

structure Issue where
  domain : Domain
  index : Nat
  remark : Remark
deriving DecidableEq, Repr

def Issue.text (i : Issue) : String := i.domain.name ++ s!" {i.index}: " ++ i.remark.text

structure Failure where
  error : BuildError
  warnings : List Issue
deriving DecidableEq, Repr

def Failure.tier (f : Failure) : Tier := f.error.tier

end CrystalModel
