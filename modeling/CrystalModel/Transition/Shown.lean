import CrystalModel.Document.Shown
import CrystalModel.Reference.Shown
import CrystalModel.Rule.Basic
import CrystalModel.Transition.Model

/-! # Rules and transitions as documents -/
namespace CrystalModel

def Rule.members (r : Rule) : List (String × Document) :=
  [("start", shown r.start), ("transition", shown r.transition), ("final", shown r.final),
    ("movement", shown r.movement), ("flags", shown r.flags.bits)]

instance : Shown Rule := ⟨fun r => .table r.members⟩

namespace Shown

instance : Shown LinkedTransition := ⟨fun t => .table [("model_id", shown t.modelId),
  ("kind", shown t.kind), ("reference", shown t.reference),
  ("abstract", shown t.abstractTransition), ("is_inverse_model", shown t.isInverse),
  ("inverse", shown t.inverse), ("frequency", shown t.frequency),
  ("mobile_mask", shown t.mobileMask), ("mappings", shown t.mappings),
  ("rules", shown t.rules)]⟩

instance : Shown Mapping := ⟨fun m => .table [("model_id", shown m.modelId),
  ("transition", shown m.transition), ("start", shown m.start), ("path", shown m.path),
  ("reversed", shown (turnedPath m.path)), ("fractional", shown m.fractional),
  ("movement", shown m.movement), ("global", shown m.globalMovement),
  ("inverse", shown m.inverse)]⟩

instance : Shown LinkedRule := ⟨fun r => .table (r.rule.members ++ [("owner", shown r.transition),
  ("codes", shown [r.startCode, r.transitionCode, r.finalCode]),
  ("frequency", shown r.frequency), ("field_factor", shown r.fieldFactor),
  ("tracker", shown r.rule.trackerBytes), ("model_flags", shown r.rule.flags.bits),
  ("inverse", shown r.inverse)])⟩

instance : Shown TransitionNetwork := ⟨fun c => .table [("transitions", shown c.transitions),
  ("mappings", shown c.mappings), ("rules", shown c.rules),
  ("kinetic_order", shown (c.ofKind .kinetic)),
  ("metropolis_order", shown (c.ofKind .metropolis))]⟩

end Shown

end CrystalModel
