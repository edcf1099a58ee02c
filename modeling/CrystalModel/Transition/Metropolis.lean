import CrystalModel.Transition.Draft

/-! # Metropolis transitions

An exchange runs between every position of its first site and every position of its second. -/
namespace CrystalModel.MetropolisTransition

variable [Trigonometry]

def invalid (t : MetropolisTransition) (fault : Fault) : BuildError :=
  .invalid .metropolisTransition t.index fault

def checkSites (t : MetropolisTransition) (s : CrystalStructure) : Except BuildError Unit :=
  [t.site0, t.site1].forM fun site =>
    if (CrystalStructure.environmentOf s.environments site).isSome then .ok ()
    else .error (t.invalid (.unknownSite site))

def mapping (s : CrystalStructure) (offsets : List Int) (first second : Nat) :
    Except BuildError PathDraft :=
  let points := [first, second].filterMap (s.encoder.positions[·]?)
  match PathDraft.ofPoints s.encoder offsets points with
  | some m => .ok m
  | none => .error (.unencodedPair first second)

def mappings (t : MetropolisTransition) (s : CrystalStructure) (offsets : List Int) :
    Except BuildError (List PathDraft) := do
  let pairs := (s.positionsOn t.site0).flatMap fun first =>
    (s.positionsOn t.site1).map fun second => (first, second)
  let found ← pairs.mapM fun (first, second) => mapping s offsets first second
  if found.isEmpty then .error (.defect (.noPairing t.index)) else .ok found

def draft (t : MetropolisTransition) (r : ReferenceData) (s : CrystalStructure) :
    Except BuildError DraftTransition :=
  match r.abstractTransition? t.abstractTransition with
  | none => .error (t.invalid (.unknownAbstract t.abstractTransition))
  | some a =>
    if a.groups.length ≠ 2 then .error (t.invalid (.notTwoPositions a.index))
    else do
      t.checkSites s
      let states ← (r.offersAlong a [t.site0, t.site1]).mapError t.invalid
      let unstable := states.map (·.unstable)
      let rules := exchangeRules r a states true
      if rules.isEmpty then .error (t.invalid .noExchangeBetweenSites)
      else
        let mappings ← t.mappings s (pathOffsets .metropolis a.connectors unstable)
        return {
          kind := .metropolis
          reference := t.index
          abstractTransition := a.index
          frequency := 1.0
          connectors := a.connectors
          unstable
          mappings
          rules }

end CrystalModel.MetropolisTransition
