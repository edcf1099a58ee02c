import CrystalModel.Build.Pass
import CrystalModel.Proofs.Fallible

/-! # Results of a pass

The stages of a pass in front of the encoding build the models, one stage on the results of the
others. What a pass reports does not change them and never ends it: a pass succeeds exactly when its
models can be built and encoded. -/
namespace CrystalModel

namespace Pass

variable {α β : Type}

/-- The step ends with the result, for some log that it starts with. -/
def Returns (p : Pass α) (a : α) : Prop := ∃ before after, p.run.run before = (.ok a, after)

theorem returns_pure {a b : α} (h : Returns (pure a) b) : a = b := by
  obtain ⟨_, _, h⟩ := h
  exact Except.ok.inj (congrArg Prod.fst h)

theorem returns_liftM {x : Except BuildError α} {a : α} (h : Returns (liftM x) a) : x = .ok a := by
  obtain ⟨_, _, h⟩ := h
  exact congrArg Prod.fst h

theorem returns_liftExcept {x : Except BuildError α} {a : α} (h : Returns (liftExcept x) a) :
    x = .ok a := by
  have same : (liftExcept x : Pass α) = liftM x := by cases x <;> rfl
  exact returns_liftM (same ▸ h)

theorem run_bind (p : Pass α) (f : α → Pass β) (log : PassLog) :
    (p >>= f).run.run log = match p.run.run log with
      | (.ok a, log) => (f a).run.run log
      | (.error e, log) => (.error e, log) := by
  change (ExceptT.bindCont f (p.run.run log).1).run (p.run.run log).2 = _
  rcases p.run.run log with ⟨_ | _, _⟩ <;> rfl

theorem returns_bind {p : Pass α} {f : α → Pass β} {b : β} (h : Returns (p >>= f) b) :
    ∃ a, Returns p a ∧ Returns (f a) b := by
  obtain ⟨before, after, h⟩ := h
  rw [run_bind] at h
  split at h
  · next a between first => exact ⟨a, ⟨_, _, first⟩, ⟨_, _, h⟩⟩
  · cases h

theorem bind_congr {p : Pass α} {f g : α → Pass β} (same : ∀ a, Returns p a → f a = g a) :
    p >>= f = p >>= g := by
  refine ExceptT.ext (StateT.ext fun log => ?_)
  rw [run_bind, run_bind]
  split
  · next a _ first => rw [same a ⟨_, _, first⟩]
  · rfl

theorem returns_stage {s : Stage} {objects : α → Nat} {work : Pass α} {a : α}
    (h : Returns (stage s objects work) a) : Returns work a := by
  obtain ⟨_, _, h⟩ := returns_bind h
  obtain ⟨b, built, h⟩ := returns_bind h
  obtain ⟨_, _, h⟩ := returns_bind h
  exact returns_pure h ▸ built

theorem returns_mapM {f : α → Pass β} {xs : List α} {ys : List β} (h : Returns (xs.mapM f) ys) :
    List.Forall₂ (fun x y => Returns (f x) y) xs ys := by
  induction xs generalizing ys with
  | nil =>
    rw [List.mapM_nil] at h
    exact returns_pure h ▸ .nil
  | cons x rest ih =>
    rw [List.mapM_cons] at h
    obtain ⟨y, first, h⟩ := returns_bind h
    obtain ⟨ys, others, h⟩ := returns_bind h
    exact returns_pure h ▸ .cons first (ih others)

/-! ## Steps that succeed -/

variable {p : Pass α} {a : α}

/-- The step ends with the result, whatever log it starts with. -/
def Succeeds (p : Pass α) (a : α) : Prop :=
  ∀ before, ∃ after, p.run.run before = (.ok a, after)

theorem succeeds_pure (a : α) : Succeeds (pure a) a := fun log => ⟨log, rfl⟩

theorem succeeds_bind {f : α → Pass β} {b : β} (first : Succeeds p a)
    (second : Succeeds (f a) b) : Succeeds (p >>= f) b := by
  intro log
  obtain ⟨between, run⟩ := first log
  rw [run_bind, run]
  exact second between

theorem succeeds_modify (f : PassLog → PassLog) : Succeeds (modify f) PUnit.unit :=
  fun log => ⟨f log, rfl⟩

theorem succeeds_liftM {x : Except BuildError α} (h : x = .ok a) : Succeeds (liftM x) a :=
  fun log => ⟨log, h ▸ rfl⟩

theorem succeeds_liftExcept {x : Except BuildError α} (h : x = .ok a) :
    Succeeds (liftExcept x) a :=
  h ▸ succeeds_pure a

theorem succeeds_stage {s : Stage} {objects : α → Nat} (work : Succeeds p a) :
    Succeeds (stage s objects p) a :=
  succeeds_bind (succeeds_modify _) (succeeds_bind work
    (succeeds_bind (succeeds_modify _) (succeeds_pure a)))

theorem succeeds_mapM {f : α → Pass β} {xs : List α} {ys : List β}
    (each : List.Forall₂ (fun x y => Succeeds (f x) y) xs ys) : Succeeds (xs.mapM f) ys := by
  induction each with
  | nil => exact succeeds_pure []
  | cons first _ ih =>
    rw [List.mapM_cons]
    exact succeeds_bind first (succeeds_bind ih (succeeds_pure _))

end Pass

variable [Trigonometry] [d : RandomSeeds] {r : ReferenceData} {config : Config} {c : StageResults}

def StageResults.models (r : ReferenceData) (config : Config) : Except BuildError StageResults := do
  let structured ← CrystalStructure.build r config
  let energy ← Energetics.build r config structured
  let t ← TransitionNetwork.build r config structured
  let (simulations, _) ← buildSimulations ⟨some structured, some energy, some t, []⟩ r config
  return ⟨some structured, some energy, some t, simulations⟩

theorem StageResults.buildSimulation_complete (structured : CrystalStructure) (energy : Energetics)
    (t : TransitionNetwork) (index : Nat) :
    buildSimulation ⟨some structured, some energy, some t, []⟩ r config index =
      SimulationModel.build r config structured t index := by
  have complete : require ⟨some structured, some energy, some t, []⟩ Stage.simulation.name
      [Stage.structural.name, Stage.energy.name, Stage.transition.name] = .ok () := rfl
  rw [buildSimulation, complete]
  rfl

theorem StageResults.models_ok_iff : models r config = .ok c ↔ ∃ structured energy t built,
    CrystalStructure.build r config = .ok structured ∧
    Energetics.build r config structured = .ok energy ∧
    TransitionNetwork.build r config structured = .ok t ∧
    List.Forall₂ (fun index b => SimulationModel.build r config structured t index = .ok b)
      (activeSimulations r) built ∧
    ⟨some structured, some energy, some t, built.map (·.1)⟩ = c := by
  simp only [models, buildSimulations, bind_ok_iff, pure_ok_iff, mapM_ok_iff,
    buildSimulation_complete]
  constructor
  · rintro ⟨structured, hstructured, energy, henergy, t, ht, _, ⟨built, hbuilt, rfl⟩, same⟩
    exact ⟨structured, energy, t, built, hstructured, henergy, ht, hbuilt, same⟩
  · rintro ⟨structured, energy, t, built, hstructured, henergy, ht, hbuilt, same⟩
    exact ⟨structured, hstructured, energy, henergy, t, ht, _, ⟨built, hbuilt, rfl⟩, same⟩

namespace Pass

def modelStages (r : ReferenceData) (config : Config) : Pass StageResults := do
  stage .validation (fun _ => r.issues.length) (warn r.issues)
  let structured ← stage .structural
    (fun s => s.pairModels.length + s.groupModels.length)
    (liftExcept (CrystalStructure.build r config))
  let c := { StageResults.empty with structured := some structured }
  let energy ← stage .energy (fun e => e.pairTables.length + e.groupTables.length)
    (liftExcept (c.buildEnergy r config))
  let c := { c with energy := some energy }
  let transition ← stage .transition (fun t => t.transitions.length)
    (liftExcept (c.buildTransition r config))
  let c := { c with transition := some transition }
  let simulations ← stage .simulation List.length (simulations c r config)
  return { c with simulations }

theorem allStages_eq : allStages r config = (do
    let c ← modelStages r config
    let blobs ← stage .encoding countBlobs (liftExcept (allBlobs c config))
    return (c, blobs)) := by
  simp only [allStages, modelStages, bind_assoc, pure_bind]

theorem returns_simulations {built : List SimulationModel}
    (h : Returns (simulations c r config) built) :
    ∃ issues, c.buildSimulations r config = .ok (built, issues) := by
  obtain ⟨results, each, h⟩ := returns_bind h
  obtain ⟨_, _, h⟩ := returns_bind h
  refine ⟨results.flatMap (·.2), bind_ok_iff.mpr ⟨results, mapM_ok_iff.mpr ?_, ?_⟩⟩
  · refine (returns_mapM each).imp fun index result one => ?_
    obtain ⟨_, _, one⟩ := returns_bind one
    exact returns_liftM one
  · exact returns_pure h ▸ rfl

theorem returns_modelStages (h : Returns (modelStages r config) c) :
    StageResults.models r config = .ok c := by
  obtain ⟨_, _, h⟩ := returns_bind h
  obtain ⟨structured, hstructured, h⟩ := returns_bind h
  obtain ⟨energy, henergy, h⟩ := returns_bind h
  obtain ⟨t, ht, h⟩ := returns_bind h
  obtain ⟨simulations, hsimulations, h⟩ := returns_bind h
  obtain ⟨_, ⟨⟩, henergy⟩ := bind_ok_iff.mp (returns_liftExcept (returns_stage henergy))
  obtain ⟨_, _, ht⟩ := bind_ok_iff.mp (returns_liftExcept (returns_stage ht))
  obtain ⟨_, ⟨⟩, ht⟩ := bind_ok_iff.mp ht
  obtain ⟨issues, hsimulations⟩ := returns_simulations (returns_stage hsimulations)
  refine bind_ok_iff.mpr ⟨structured, returns_liftExcept (returns_stage hstructured), ?_⟩
  refine bind_ok_iff.mpr ⟨energy, henergy, bind_ok_iff.mpr ⟨t, ht, ?_⟩⟩
  exact bind_ok_iff.mpr ⟨(simulations, issues), hsimulations, congrArg _ (returns_pure h)⟩

theorem returns_allStages {blobs : List (Nat × Binary.BlobSet)}
    (h : Returns (allStages r config) (c, blobs)) :
    StageResults.models r config = .ok c ∧ allBlobs c config = .ok blobs := by
  rw [allStages_eq] at h
  obtain ⟨built, hbuilt, h⟩ := returns_bind h
  obtain ⟨encoded, hencoded, h⟩ := returns_bind h
  obtain ⟨rfl, rfl⟩ := Prod.mk.inj (returns_pure h)
  exact ⟨returns_modelStages hbuilt, returns_liftExcept (returns_stage hencoded)⟩

theorem succeeds_simulations {built : List SimulationModel} {issues : List Issue}
    (h : c.buildSimulations r config = .ok (built, issues)) :
    Succeeds (simulations c r config) built := by
  obtain ⟨results, each, h⟩ := bind_ok_iff.mp h
  cases pure_ok_iff.mp h
  refine succeeds_bind (succeeds_mapM ((mapM_ok_iff.mp each).imp fun index result one => ?_))
    (succeeds_bind (succeeds_modify _) (succeeds_pure _))
  exact succeeds_bind (succeeds_modify _) (succeeds_liftM one)

theorem succeeds_modelStages (h : StageResults.models r config = .ok c) :
    Succeeds (modelStages r config) c := by
  obtain ⟨structured, structural, h⟩ := bind_ok_iff.mp h
  obtain ⟨energy, powered, h⟩ := bind_ok_iff.mp h
  obtain ⟨t, network, h⟩ := bind_ok_iff.mp h
  obtain ⟨⟨simulations, issues⟩, simulated, h⟩ := bind_ok_iff.mp h
  cases pure_ok_iff.mp h
  refine succeeds_bind (succeeds_stage (succeeds_modify _)) ?_
  refine succeeds_bind (succeeds_stage (succeeds_liftExcept structural)) ?_
  refine succeeds_bind (succeeds_stage (succeeds_liftExcept powered)) ?_
  refine succeeds_bind (succeeds_stage (succeeds_liftExcept network)) ?_
  exact succeeds_bind (succeeds_stage (succeeds_simulations simulated)) (succeeds_pure _)

end Pass

/-- A pass succeeds with the models of its data and their blobs, and in no other way. -/
theorem compile_ok_iff {context : StageResults} {blobs : List (Nat × Binary.BlobSet)} :
    (∃ issues events, compile r config = (.ok ⟨context, blobs, issues⟩, events)) ↔
      StageResults.models r config = .ok context ∧ Pass.allBlobs context config = .ok blobs := by
  constructor
  · rintro ⟨issues, events, h⟩
    unfold compile at h
    split at h
    · next stages =>
      cases h
      exact Pass.returns_allStages ⟨_, _, stages⟩
    · cases h
  · rintro ⟨models, encoded⟩
    have passes : Pass.Succeeds (Pass.allStages r config) (context, blobs) := by
      rw [Pass.allStages_eq]
      exact Pass.succeeds_bind (Pass.succeeds_modelStages models) (Pass.succeeds_bind
        (Pass.succeeds_stage (Pass.succeeds_liftExcept encoded)) (Pass.succeeds_pure _))
    obtain ⟨log, run⟩ := passes .empty
    exact ⟨log.warnings, log.events, by rw [compile, run]⟩

end CrystalModel
