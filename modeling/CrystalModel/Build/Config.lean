import CrystalModel.Document.Reading
import CrystalModel.Document.Toml
import CrystalModel.Numeric.Notation
import CrystalModel.Rule.Basic

/-! # Build settings -/
namespace CrystalModel

structure Config where
  geometryTolerance : Float
  energyTolerance : Float
  fallbackSeed : Option UInt64
  maxPathLength : Nat
  parallel : Bool
  verifyOutput : Bool
deriving DecidableEq, Repr

inductive ConfigError where
  | missingParameter (name : String)
  | badTolerance (name : String) (value : Float)
  | badPathLength (length : Nat)
deriving DecidableEq, Repr

def ConfigError.message : ConfigError → String
  | .missingParameter name => "Missing required parameter: " ++ name
  | .badTolerance name value =>
    s!"Invalid value for \x27{name}\x27: " ++ Numeric.plain value ++
      " is not a positive finite number"
  | .badPathLength length =>
    s!"Invalid value for \x27max_path_length\x27: {length} is outside 2..={pathLimit}"

structure Settings where
  geometryTolerance : Option Float
  energyTolerance : Option Float
  fallbackSeed : Option UInt64
  maxPathLength : Option Nat
  parallel : Option Bool
  verifyOutput : Option Bool
deriving DecidableEq, Repr

namespace Settings

def isTolerance (value : Float) : Bool := value.isFinite && value > 0.0

/-- Fills in what is not given; the geometry tolerance has to be. -/
def config (s : Settings) : Except ConfigError Config :=
  match s.geometryTolerance with
  | none => .error (.missingParameter "geometry_tolerance")
  | some geometryTolerance =>
    let c : Config := {
      geometryTolerance
      energyTolerance := s.energyTolerance.getD 1.0e-9
      fallbackSeed := s.fallbackSeed
      maxPathLength := s.maxPathLength.getD pathLimit
      parallel := s.parallel.getD true
      verifyOutput := s.verifyOutput.getD true }
    if !isTolerance c.geometryTolerance then
      .error (.badTolerance "geometry_tolerance" c.geometryTolerance)
    else if !isTolerance c.energyTolerance then
      .error (.badTolerance "energy_tolerance" c.energyTolerance)
    else if c.maxPathLength < 2 ∨ pathLimit < c.maxPathLength then
      .error (.badPathLength c.maxPathLength)
    else .ok c

open Document Document.Reader

def read : Reader Settings := fun d => do
  let m ← members ["geometry-tolerance", "energy-tolerance", "fallback-seed",
    "max-path-length", "parallel", "verify-output"] d
  return ⟨← member? m "geometry-tolerance" real, ← member? m "energy-tolerance" real,
    ← member? m "fallback-seed" word, ← member? m "max-path-length" natural,
    ← member? m "parallel" flag, ← member? m "verify-output" flag⟩

end Settings

namespace Config

inductive TextError where
  | notToml
  | form (fault : Document.Fault)
  | content (error : ConfigError)
deriving DecidableEq, Repr

/-- The configuration of a text, where the geometry tolerance may be left out as well. -/
def ofToml (content : String) : Except TextError Config :=
  match Document.Toml.read? content with
  | none => .error .notToml
  | some d => match Settings.read d with
    | .error fault => .error (.form fault)
    | .ok s =>
      let s := { s with geometryTolerance := some (s.geometryTolerance.getD 1.0e-6) }
      s.config.mapError .content

end Config

end CrystalModel
