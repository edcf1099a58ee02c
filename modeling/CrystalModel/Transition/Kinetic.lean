import CrystalModel.Build.Config
import CrystalModel.Path.Ring
import CrystalModel.Symmetry.Projection
import CrystalModel.Transition.Draft

/-! # Kinetic transitions

A jump runs on every symmetry image of its authored path that starts in the origin cell. -/
namespace CrystalModel.KineticTransition

variable [Trigonometry]

/-- The authored path on the lattice: one position per exchange group, and never the same
position twice. -/
def encodedPath (t : KineticTransition) (config : Config) (s : CrystalStructure)
    (a : AbstractTransition) : Except BuildError (List CrystalVector) :=
  let length := t.geometry.length
  if length ≠ a.groups.length then
    .error (.geometry t.index (.pointCount length a.groups.length))
  else if length < 2 ∨ config.maxPathLength < length then
    .error (.geometry t.index (.pathLength length config.maxPathLength))
  else match s.encoder.encodeAll t.geometry with
    | none => .error (.geometry t.index .offLattice)
    | some path =>
      if isRing s.encoder.tolerance t.geometry then .error (.ring t.index) else .ok path

def mapping (t : KineticTransition) (e : Encoder) (offsets : List Int) (points : List Point) :
    Except BuildError PathDraft :=
  match PathDraft.ofPoints e offsets points with
  | none => .error (.defect (.realizationOffLattice t.index))
  | some m => if isCrystalRing m.path then .error (.ring t.index) else .ok m

def mappings (t : KineticTransition) (s : CrystalStructure) (offsets : List Int) :
    Except BuildError (List PathDraft) := do
  let found ← (s.symmetry.pathImages t.geometry).mapM (t.mapping s.encoder offsets)
  return found.mergeSort fun a b => (compare a.path b.path).isLE

def invalid (t : KineticTransition) (fault : Fault) : BuildError :=
  .invalid .kineticTransition t.index fault

def draft (t : KineticTransition) (r : ReferenceData) (config : Config) (s : CrystalStructure) :
    Except BuildError DraftTransition :=
  match r.abstractTransition? t.abstractTransition with
  | none => .error (t.invalid (.unknownAbstract t.abstractTransition))
  | some a => do
    let path ← t.encodedPath config s a
    let sites := path.map fun v => (CrystalStructure.siteAt s.positionSites v).getD 0
    let states ← (r.offersAlong a sites).mapError t.invalid
    let unstable := states.map (·.unstable)
    let rules := exchangeRules r a states false
    if rules.isEmpty then .error (t.invalid .noExchangeOnPath)
    else
      let mappings ← t.mappings s (pathOffsets .kinetic a.connectors unstable)
      return {
        kind := .kinetic
        reference := t.index
        abstractTransition := a.index
        frequency := t.attemptFrequency
        connectors := a.connectors
        unstable
        mappings
        rules }

end CrystalModel.KineticTransition
