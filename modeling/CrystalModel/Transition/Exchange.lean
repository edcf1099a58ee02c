import CrystalModel.Build.Error
import CrystalModel.Rule.Generate

/-! # Exchanges offered along a path

An abstract transition names an exchange group per path position. A group offers those of its
pairs whose particles the site of the position may hold. -/
namespace CrystalModel

def mayHold (set : ParticleSet) (particle : Nat) : Bool :=
  particle == voidIndex || set.particles.contains particle

/-- A site need not hold the acceptor of an unstable pair. -/
def ExchangePair.fits (p : ExchangePair) (set : ParticleSet) : Bool :=
  mayHold set p.donor && (p.unstable || mayHold set p.acceptor)

namespace ReferenceData

def activeGroup (r : ReferenceData) (group : Nat) : Except Fault ExchangeGroup :=
  match r.exchangeGroups[group]?.filter (·.isActive) with
  | some g => .ok g
  | none => .error (.unknownExchangeGroup group)

def activePair (r : ReferenceData) (pair : Nat) : Except Fault ExchangePair :=
  match r.exchangePairs[pair]?.filter (·.isActive) with
  | some p => .ok p
  | none => .error (.unknownExchangePair pair)

def occupationOf (r : ReferenceData) (site : Nat) : Except Fault ParticleSet :=
  match r.sites[site]?.bind fun s => r.particleSets[s.occupation]? with
  | some set => .ok set
  | none => .error (.siteWithoutSet site)

/-- What one group offers on one site. A position is unstable when any pair of its group is. -/
def offerOf (r : ReferenceData) (group site : Nat) : Except Fault PositionOffer := do
  let g ← r.activeGroup group
  let set ← r.occupationOf site
  let pairs ← g.pairs.mapM r.activePair
  let fitting := pairs.filter (·.fits set)
  if fitting.isEmpty then .error (.noFittingPair group site)
  else .ok (.of (fitting.map fun p => ⟨UInt8.ofNat p.donor, UInt8.ofNat p.acceptor⟩)
    (pairs.any (·.unstable)))

def offersAlong (r : ReferenceData) (a : AbstractTransition) (sites : List Nat) :
    Except Fault (List PositionOffer) :=
  if a.connectors.length + 1 ≠ a.groups.length then
    .error (.connectorCount a.index a.groups.length a.connectors.length)
  else (a.groups.zip sites).mapM fun (group, site) => r.offerOf group site

def abstractTransition? (r : ReferenceData) (transition : Nat) : Option AbstractTransition :=
  r.abstractTransitions[transition]?.filter (·.isActive)

end ReferenceData

/-- Every rule and, where it is another one, the same rule running backwards. -/
def bothWays (rules : List Rule) : List Rule :=
  rules.flatMap fun rule => if rule.swapped = rule then [rule] else [rule, rule.swapped]

end CrystalModel
