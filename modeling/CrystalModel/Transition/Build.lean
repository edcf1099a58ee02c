import CrystalModel.Numeric.Lists
import CrystalModel.Reference.Validation
import CrystalModel.Transition.Kinetic
import CrystalModel.Transition.Link
import CrystalModel.Transition.Metropolis

/-! # Building the transitions

From reference data and a structure to numbered models. The kinetic models come first, then the
Metropolis ones; the mappings and the rules of a model are numbered without gaps. -/
namespace CrystalModel

/-- The charge moved along the path, each change weighted by its place. -/
def chargeMoved (particles : List Particle) (rule : Rule) : Float :=
  let charge := fun (p : UInt8) => (particles[p.toNat]?.map (·.charge)).getD 0.0
  if rule.length < 2 then 0.0
  else (rule.start.zip rule.final).zipIdx.foldl
    (fun sum ((start, final), i) =>
      sum + (charge final - charge start) * Float.ofNat i / Float.ofNat (rule.length - 1)) (-0.0)

/-- The particles that start some rule on the first path position. -/
def mobileMask (rules : List Rule) : UInt64 :=
  rules.foldl (fun mask rule =>
    match rule.start.head? with
    | some first => if first = voidByte then mask else mask ||| (1 <<< UInt64.ofNat first.toNat)
    | none => mask) 0

namespace TransitionNetwork

def mappingsBefore (plans : List TransitionPlan) (place : Nat) : Nat :=
  Numeric.total ((plans.take place).map (·.draft.mappings.length))

def rulesBefore (plans : List TransitionPlan) (place : Nat) : Nat :=
  Numeric.total ((plans.take place).map (·.draft.rules.length))

/-- The numbers that the models, mappings and rules of one kind start with. -/
structure Base where
  transitions : Nat
  mappings : Nat
  rules : Nat
deriving DecidableEq, Repr

def model (base : Base) (plans : List TransitionPlan) (plan : TransitionPlan) :
    LinkedTransition where
  modelId := plan.modelId
  kind := plan.draft.kind
  reference := plan.draft.reference
  abstractTransition := plan.draft.abstractTransition
  isInverse := plan.isInverse
  inverse := base.transitions + plan.inverse
  frequency := plan.draft.frequency
  mobileMask := mobileMask plan.draft.rules
  mappings := List.range' (base.mappings + mappingsBefore plans plan.modelId)
    plan.draft.mappings.length
  rules := List.range' (base.rules + rulesBefore plans plan.modelId) plan.draft.rules.length

def mappingsOf (base : Base) (plans : List TransitionPlan) (plan : TransitionPlan) :
    List Mapping :=
  (plan.draft.mappings.zip plan.links).zipIdx.map fun ((draft, link), k) => {
    modelId := mappingsBefore plans plan.modelId + k
    transition := base.transitions + plan.modelId
    path := draft.path
    fractional := draft.fractional
    movement := draft.movement
    inverse := base.mappings + mappingsBefore plans plan.inverse + link }

def fieldFactor (particles : List Particle) (kind : SimulationKind) (rule : Rule) : Float :=
  match kind with
  | .kinetic => chargeMoved particles rule
  | .metropolis => 0.0

def rulesOf (particles : List Particle) (base : Base) (plans : List TransitionPlan)
    (plan : TransitionPlan) : List LinkedRule :=
  let first := base.rules + rulesBefore plans plan.modelId
  (plan.draft.rules.zip (ruleLinks plan.draft.rules)).map fun (rule, link) => {
    transition := base.transitions + plan.modelId
    rule
    frequency := plan.draft.frequency
    fieldFactor := fieldFactor particles plan.draft.kind rule
    inverse := link.map (first + ·) }

def append (particles : List Particle) (c : TransitionNetwork) (plans : List TransitionPlan) :
    TransitionNetwork :=
  let base : Base := ⟨c.transitions.length, c.mappings.length, c.rules.length⟩
  ⟨c.transitions ++ plans.map (model base plans),
    c.mappings ++ plans.flatMap (mappingsOf base plans),
    c.rules ++ plans.flatMap (rulesOf particles base plans)⟩

def empty : TransitionNetwork := ⟨[], [], []⟩

def build [Trigonometry] (r : ReferenceData) (config : Config) (s : CrystalStructure) :
    Except BuildError TransitionNetwork := do
  r.checkPlaces
  let kinetic ← (r.kineticTransitions.filter (·.isActive)).mapM (·.draft r config s)
  let kinetic ← TransitionPlan.ofDrafts s.encoder kinetic
  let metropolis ← (r.metropolisTransitions.filter (·.isActive)).mapM (·.draft r s)
  let metropolis ← TransitionPlan.ofDrafts s.encoder metropolis
  return (empty.append r.particles kinetic).append r.particles metropolis

end TransitionNetwork

end CrystalModel
