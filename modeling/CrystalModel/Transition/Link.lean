import CrystalModel.Transition.Draft

/-! # Inverses

Which rule undoes a rule, and on which path a jump is undone. A model whose reversed paths are
among its own is its own inverse; every other model gets an appended one. -/
namespace CrystalModel

namespace RuleLinks

/-- The inverse of rule `i`: the first later rule without an inverse that undoes it, else the
rule itself if it undoes itself. -/
def partner? (rules : List Rule) (links : List (Option Nat)) (i : Nat) (rule : Rule) :
    Option Nat :=
  let later := ((rules.zip links).zipIdx.drop (i + 1)).find? fun ((other, link), _) =>
    link.isNone && other.Undoes rule
  match later with
  | some (_, j) => some j
  | none => if rule.Undoes rule then some i else none

/-- Links rule `i`, unless an earlier rule has done so, and its inverse back to it. -/
def link (rules : List Rule) (links : List (Option Nat)) (i : Nat) : List (Option Nat) :=
  match rules[i]?, links[i]? with
  | some rule, some none =>
    match partner? rules links i rule with
    | some j => (links.set i (some j)).set j (some i)
    | none => links
  | _, _ => links

end RuleLinks

def ruleLinks (rules : List Rule) : List (Option Nat) :=
  (List.range rules.length).foldl (RuleLinks.link rules) (rules.map fun _ => none)

/-- The place of the first path that is the reversed one, for every path. -/
def pathLinks (paths : List (List CrystalVector)) : List (Option Nat) :=
  paths.map fun path => paths.idxOf? (turnedPath path)

/-- The inverses of all mappings among themselves; none when no mapping has one there. -/
def DraftTransition.ownLinks (d : DraftTransition) : Except BuildError (Option (List Nat)) :=
  let links := pathLinks (d.mappings.map (·.path))
  let linked := links.filterMap id
  if linked.isEmpty then .ok none
  else if linked.length ≠ links.length then
    .error (.defect (.partialInverse d.reference linked.length links.length))
  else .ok (some linked)

/-- A draft with its model id and its inverse, which are places among the plans of one kind; the
links are places among the mappings of the inverse. -/
structure TransitionPlan where
  modelId : Nat
  isInverse : Bool
  draft : DraftTransition
  inverse : Nat
  links : List Nat
deriving DecidableEq, Repr

namespace TransitionPlan

variable [Trigonometry]

/-- The plan of an authored transition. `pending` lists the ids without inverses of their own,
which are appended in this order behind all `count` authored ones. -/
def authored (count : Nat) (pending : List Nat) (modelId : Nat) (draft : DraftTransition)
    (own : Option (List Nat)) : TransitionPlan :=
  match own with
  | some links => ⟨modelId, false, draft, modelId, links⟩
  | none => ⟨modelId, false, draft, count + (pending.idxOf? modelId).getD 0,
      List.range draft.mappings.length⟩

def appended (count place forward : Nat) (draft : DraftTransition) : TransitionPlan :=
  ⟨count + place, true, draft, forward, List.range draft.mappings.length⟩

def reversedDraft (e : Encoder) (drafts : List DraftTransition) (forward : Nat) :
    Except BuildError (List DraftTransition) :=
  match drafts[forward]? with
  | none => .ok []
  | some d => match d.reversed e with
    | some reversed => .ok [reversed]
    | none => .error (.defect (.reversedOffLattice d.reference))

/-- The plans of one kind: the authored transitions, then the appended inverse models. -/
def ofDrafts (e : Encoder) (drafts : List DraftTransition) :
    Except BuildError (List TransitionPlan) := do
  let own ← drafts.mapM (·.ownLinks)
  let pending := own.zipIdx.filterMap fun (links, id) => if links.isNone then some id else none
  let reversed ← pending.mapM (reversedDraft e drafts)
  let authored := (drafts.zip own).zipIdx.map fun ((draft, links), id) =>
    TransitionPlan.authored drafts.length pending id draft links
  let appended := (pending.zip reversed.flatten).zipIdx.map fun ((forward, draft), place) =>
    TransitionPlan.appended drafts.length place forward draft
  return authored ++ appended

end TransitionPlan

end CrystalModel
