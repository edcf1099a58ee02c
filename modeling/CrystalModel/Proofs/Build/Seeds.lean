import CrystalModel.Proofs.Build.Pass
import CrystalModel.Proofs.Simulation.Build

/-! # Drawn seeds

A pass draws the seed of a simulation that has none, unless there is a fallback seed. Two passes
that draw other seeds run alike: nothing but these seeds and the notes about them differs. -/
namespace CrystalModel

/-- A seed is drawn for the simulation of this index. -/
def ReferenceData.Draws (r : ReferenceData) (config : Config) (index : Nat) : Prop :=
  config.fallbackSeed = none ∧ ∃ sim ∈ r.simulations, sim.isActive ∧ sim.seed = none ∧
    sim.index = index

/-- Two draws of the seeds of some simulations. -/
structure Redraw where
  drawn : Nat → Prop
  first : RandomSeeds
  second : RandomSeeds

def ReferenceData.redraw (r : ReferenceData) (config : Config) (first second : RandomSeeds) :
    Redraw :=
  ⟨r.Draws config, first, second⟩

namespace Redraw

variable (x : Redraw)

def seedNote (index : Nat) (seed : UInt64) : Issue := ⟨.simulation, index, .generatedSeed seed⟩

inductive AlikeIssue : Issue → Issue → Prop
  | same (i : Issue) : AlikeIssue i i
  | seed (index : Nat) (drawn : x.drawn index) :
    AlikeIssue (seedNote index (x.first.draw index)) (seedNote index (x.second.draw index))

inductive AlikeEvent : Event → Event → Prop
  | same (e : Event) : AlikeEvent e e
  | note {i i' : Issue} (alike : x.AlikeIssue i i') : AlikeEvent (.note i) (.note i')

inductive AlikeModel : SimulationModel → SimulationModel → Prop
  | same (s : SimulationModel) : AlikeModel s s
  | seed (s : SimulationModel) (index : Nat) (drawn : x.drawn index) :
    AlikeModel { s with seed := x.first.draw index } { s with seed := x.second.draw index }

structure AlikeLog (log log' : PassLog) : Prop where
  events : List.Forall₂ x.AlikeEvent log.events log'.events
  warnings : List.Forall₂ x.AlikeIssue log.warnings log'.warnings

structure AlikeStages (c c' : StageResults) : Prop where
  structured : c.structured = c'.structured
  energy : c.energy = c'.energy
  transition : c.transition = c'.transition
  simulations : List.Forall₂ x.AlikeModel c.simulations c'.simulations

structure AlikeResult (m m' : BuildResult) : Prop where
  context : x.AlikeStages m.context m'.context
  blobs : m.blobs = m'.blobs
  issues : List.Forall₂ x.AlikeIssue m.issues m'.issues

structure AlikeFailure (f f' : Failure) : Prop where
  error : f.error = f'.error
  warnings : List.Forall₂ x.AlikeIssue f.warnings f'.warnings

inductive Both {ε α β : Type} (E : ε → ε → Prop) (R : α → β → Prop) :
    Except ε α → Except ε β → Prop
  | ok {a : α} {b : β} (related : R a b) : Both E R (.ok a) (.ok b)
  | error {e e' : ε} (related : E e e') : Both E R (.error e) (.error e')

/-- Two passes that end alike, after alike events. -/
def AlikePass (p p' : Except Failure BuildResult × List Event) : Prop :=
  Both x.AlikeFailure x.AlikeResult p.1 p'.1 ∧ List.Forall₂ x.AlikeEvent p.2 p'.2

/-- All drawn seeds agree. -/
def Agrees : Prop := ∀ index, x.drawn index → x.first.draw index = x.second.draw index

section Agrees

variable {x}

theorem Agrees.issue (agrees : x.Agrees) {i i' : Issue} (h : x.AlikeIssue i i') : i = i' := by
  cases h with
  | same => rfl
  | seed index drawn => rw [agrees index drawn]

theorem Agrees.event (agrees : x.Agrees) {e e' : Event} (h : x.AlikeEvent e e') : e = e' := by
  cases h with
  | same => rfl
  | note alike => rw [agrees.issue alike]

theorem Agrees.model (agrees : x.Agrees) {s s' : SimulationModel} (h : x.AlikeModel s s') :
    s = s' := by
  cases h with
  | same => rfl
  | seed s index drawn => rw [agrees index drawn]

theorem eq_of_alike {α : Type} {R : α → α → Prop} (each : ∀ {a b}, R a b → a = b) {xs ys : List α}
    (h : List.Forall₂ R xs ys) : xs = ys := by
  rw [← List.forall₂_eq_eq_eq]
  exact h.imp fun _ _ => each

theorem Agrees.stages (agrees : x.Agrees) {c c' : StageResults} (h : x.AlikeStages c c') :
    c = c' := by
  obtain ⟨structured, energy, transition, simulations⟩ := h
  have models := eq_of_alike agrees.model simulations
  cases c
  cases c'
  simp only [StageResults.mk.injEq]
  exact ⟨structured, energy, transition, models⟩

theorem Agrees.result (agrees : x.Agrees) {m m' : BuildResult} (h : x.AlikeResult m m') :
    m = m' := by
  obtain ⟨context, blobs, issues⟩ := h
  have models := agrees.stages context
  have notes := eq_of_alike agrees.issue issues
  cases m
  cases m'
  simp only [BuildResult.mk.injEq]
  exact ⟨models, blobs, notes⟩

theorem Agrees.failure (agrees : x.Agrees) {f f' : Failure} (h : x.AlikeFailure f f') :
    f = f' := by
  obtain ⟨error, warnings⟩ := h
  have notes := eq_of_alike agrees.issue warnings
  cases f
  cases f'
  simp only [Failure.mk.injEq]
  exact ⟨error, notes⟩

theorem Agrees.pass (agrees : x.Agrees) {p p' : Except Failure BuildResult × List Event}
    (h : x.AlikePass p p') : p = p' := by
  obtain ⟨both, events⟩ := h
  refine Prod.ext ?_ (eq_of_alike agrees.event events)
  generalize p.1 = result, p'.1 = result' at both
  cases both with
  | ok related => rw [agrees.result related]
  | error related => rw [agrees.failure related]

end Agrees

end Redraw

theorem alike_refl {α : Type} {R : α → α → Prop} (same : ∀ a, R a a) (xs : List α) :
    List.Forall₂ R xs xs :=
  List.forall₂_same.mpr fun a _ => same a

namespace Pass

open Redraw (Both)

variable {α β γ δ : Type} {x : Redraw}

/-- Two steps that take alike logs to alike ends. -/
def Alike (x : Redraw) (R : α → β → Prop) (p : Pass α) (q : Pass β) : Prop :=
  ∀ log log', x.AlikeLog log log' → Both Eq R (p.run.run log).1 (q.run.run log').1 ∧
    x.AlikeLog (p.run.run log).2 (q.run.run log').2

variable {R : α → β → Prop} {S : γ → δ → Prop}

theorem alike_pure {a : α} {b : β} (related : R a b) : Alike x R (pure a) (pure b) :=
  fun _ _ logs => ⟨.ok related, logs⟩

theorem alike_bind {p : Pass α} {q : Pass β} {f : α → Pass γ} {g : β → Pass δ}
    (first : Alike x R p q) (second : ∀ a b, R a b → Alike x S (f a) (g b)) :
    Alike x S (p >>= f) (q >>= g) := by
  intro log log' logs
  obtain ⟨both, logs⟩ := first log log' logs
  rw [run_bind, run_bind]
  generalize p.run.run log = run, q.run.run log' = run' at both logs
  obtain ⟨result, log⟩ := run
  obtain ⟨result', log'⟩ := run'
  cases both with
  | ok related => exact second _ _ related log log' logs
  | error same => exact ⟨.error same, logs⟩

theorem alike_report (event : Event) : Alike x Eq (report event) (report event) :=
  fun _ _ logs => ⟨.ok rfl, List.rel_append logs.events (.cons (.same event) .nil), logs.warnings⟩

theorem alike_warn {issues issues' : List Issue}
    (alike : List.Forall₂ x.AlikeIssue issues issues') :
    Alike x Eq (warn issues) (warn issues') := by
  refine fun _ _ logs => ⟨.ok rfl, List.rel_append logs.events ?_,
    List.rel_append logs.warnings alike⟩
  rw [List.forall₂_map_left_iff, List.forall₂_map_right_iff]
  exact alike.imp fun _ _ => .note

theorem alike_liftM {a : Except BuildError α} {b : Except BuildError β} (both : Both Eq R a b) :
    Alike x R (liftM a) (liftM b) :=
  fun _ _ logs => ⟨both, logs⟩

theorem alike_liftExcept (a : Except BuildError α) : Alike x Eq (liftExcept a) (liftExcept a) := by
  cases a with
  | ok a => exact alike_pure rfl
  | error e => exact fun _ _ logs => ⟨.error rfl, logs⟩

theorem alike_stage (s : Stage) {objects : α → Nat} {objects' : β → Nat} {p : Pass α} {q : Pass β}
    (work : Alike x R p q) (counted : ∀ a b, R a b → objects a = objects' b) :
    Alike x R (stage s objects p) (stage s objects' q) := by
  refine alike_bind (alike_report _) fun _ _ _ => alike_bind work fun a b related => ?_
  rw [counted a b related]
  exact alike_bind (alike_report _) fun _ _ _ => alike_pure related

theorem alike_mapM {f : γ → Pass α} {g : γ → Pass β} (xs : List γ)
    (each : ∀ c ∈ xs, Alike x R (f c) (g c)) :
    Alike x (List.Forall₂ R) (xs.mapM f) (xs.mapM g) := by
  induction xs with
  | nil => exact alike_pure .nil
  | cons c rest ih =>
    obtain ⟨first, others⟩ := List.forall_mem_cons.mp each
    rw [List.mapM_cons, List.mapM_cons]
    exact alike_bind first fun _ _ head => alike_bind (ih others) fun _ _ tail =>
      alike_pure (.cons head tail)

end Pass

section Draws

variable [Trigonometry] {r : ReferenceData} {config : Config} {first second : RandomSeeds}

def Redraw.AlikeBuilt (x : Redraw) (b b' : SimulationModel × List Issue) : Prop :=
  x.AlikeModel b.1 b'.1 ∧ List.Forall₂ x.AlikeIssue b.2 b'.2

omit [Trigonometry] in
theorem Simulation.seedWith_cases {sim : Simulation} (listed : sim ∈ r.simulations)
    (active : sim.isActive) (first second : RandomSeeds) :
    sim.seedWith (d := first) config = sim.seedWith (d := second) config ∨
      r.Draws config sim.index ∧ ∀ d : RandomSeeds, sim.seedWith (d := d) config =
        (d.draw sim.index, [Redraw.seedNote sim.index (d.draw sim.index)]) := by
  cases given : sim.seed with
  | some seed => exact Or.inl (by simp only [seedWith, given])
  | none =>
    cases fallback : config.fallbackSeed with
    | some base => exact Or.inl (by simp only [seedWith, given, fallback])
    | none =>
      refine Or.inr ⟨⟨fallback, sim, listed, active, given, rfl⟩, fun d => ?_⟩
      simp only [seedWith, given, fallback, Redraw.seedNote]

/-- Models that are built with other seeds differ in nothing else. -/
theorem SimulationModel.build_alike (structured : CrystalStructure) (t : TransitionNetwork)
    (index : Nat) : Redraw.Both Eq (r.redraw config first second).AlikeBuilt
      (build (d := first) r config structured t index)
      (build (d := second) r config structured t index) := by
  cases found : r.simulations[index]? with
  | none =>
    have refused : checked r index = .error (invalid index .unknownSimulation) := by
      simp only [checked, found, Option.filter_none]
    simp only [build, refused, bind, Except.bind]
    exact .error rfl
  | some sim =>
    rw [build_reseeded found first second]
    cases made : build (d := first) r config structured t index with
    | error e => exact .error rfl
    | ok b =>
      obtain ⟨s, issues⟩ := b
      have seeded := seed_of_build (d := first) found made
      obtain ⟨_, accepted, _⟩ := bind_ok_iff.mp made
      obtain ⟨listed, active⟩ := checked_ok accepted
      obtain rfl := Option.some.inj (found.symm.trans listed)
      refine .ok ?_
      rcases Simulation.seedWith_cases (List.mem_of_getElem? found) active first second with
        same | ⟨drawn, seeds⟩
      · rw [← same, seeded]
        exact ⟨.same s, alike_refl .same issues⟩
      · rw [seeds second]
        rw [seeds first] at seeded
        obtain ⟨seed, rfl⟩ := Prod.mk.inj seeded
        refine ⟨?_, .cons (.seed sim.index drawn) .nil⟩
        have kept : { s with seed := first.draw sim.index } = s := by rw [seed]
        exact kept ▸ .seed s sim.index drawn

namespace Pass

variable {c c' : StageResults}

theorem buildSimulation_alike (c : StageResults) (index : Nat) :
    Redraw.Both Eq (r.redraw config first second).AlikeBuilt
      (c.buildSimulation (d := first) r config index)
      (c.buildSimulation (d := second) r config index) := by
  unfold StageResults.buildSimulation
  cases c.require Stage.simulation.name
    [Stage.structural.name, Stage.energy.name, Stage.transition.name] with
  | error e => exact .error rfl
  | ok _ =>
    cases c.structureResult with
    | error e => exact .error rfl
    | ok structured =>
      cases c.transitionResult with
      | error e => exact .error rfl
      | ok t => exact SimulationModel.build_alike structured t index

theorem simulations_alike (c : StageResults) :
    Alike (r.redraw config first second) (List.Forall₂ (r.redraw config first second).AlikeModel)
      (simulations (d := first) c r config) (simulations (d := second) c r config) := by
  refine alike_bind (R := List.Forall₂ (r.redraw config first second).AlikeBuilt)
    (alike_mapM _ fun index _ => ?_) fun built built' models => ?_
  · exact alike_bind (alike_report _) fun _ _ _ => alike_liftM (buildSimulation_alike c index)
  · refine alike_bind (alike_warn ?_) fun _ _ _ => alike_pure ?_
    · exact List.rel_flatMap models fun _ _ both => both.2
    · rw [List.forall₂_map_left_iff, List.forall₂_map_right_iff]
      exact models.imp fun _ _ both => both.1

theorem modelStages_alike :
    Alike (r.redraw config first second) (r.redraw config first second).AlikeStages
      (modelStages (d := first) r config) (modelStages (d := second) r config) := by
  refine alike_bind (alike_stage _ (alike_warn (alike_refl .same _)) fun _ _ _ => rfl)
    fun _ _ _ => ?_
  refine alike_bind (alike_stage _ (alike_liftExcept _) fun _ _ same => by rw [same]) ?_
  rintro structured _ rfl
  refine alike_bind (alike_stage _ (alike_liftExcept _) fun _ _ same => by rw [same]) ?_
  rintro energy _ rfl
  refine alike_bind (alike_stage _ (alike_liftExcept _) fun _ _ same => by rw [same]) ?_
  rintro t _ rfl
  refine alike_bind (alike_stage _ (simulations_alike _) fun _ _ models => models.length_eq) ?_
  exact fun _ _ models => alike_pure ⟨rfl, rfl, rfl, models⟩

omit [Trigonometry] in
/-- No blob holds a seed. -/
theorem allBlobs_alike {x : Redraw} (alike : x.AlikeStages c c') :
    allBlobs c config = allBlobs c' config := by
  refine mapM_congr (alike.simulations.imp fun s s' models => ?_)
  have blobs : c.blobs s = c'.blobs s' := by
    obtain ⟨structured, energy, transition, _⟩ := c
    obtain ⟨rfl, rfl, rfl, _⟩ := alike
    cases models <;> rfl
  have number : s.simulation = s'.simulation := by cases models <;> rfl
  rw [keyedBlobs, keyedBlobs, blobs, number]

theorem allStages_alike (r : ReferenceData) (config : Config) (first second : RandomSeeds) :
    Alike (r.redraw config first second)
    (fun a b => (r.redraw config first second).AlikeStages a.1 b.1 ∧ a.2 = b.2)
    (allStages (d := first) r config) (allStages (d := second) r config) := by
  rw [allStages_eq (d := first), allStages_eq (d := second)]
  refine alike_bind modelStages_alike fun c c' alike => ?_
  rw [allBlobs_alike alike]
  refine alike_bind (alike_stage _ (alike_liftExcept _) fun _ _ same => by rw [same]) ?_
  exact fun _ _ same => alike_pure ⟨alike, same⟩

end Pass

/-- Passes over the same data that draw other seeds differ in the drawn seeds only. -/
theorem compile_alike (r : ReferenceData) (config : Config) (first second : RandomSeeds) :
    (r.redraw config first second).AlikePass (compile (d := first) r config)
      (compile (d := second) r config) := by
  obtain ⟨both, logs⟩ := Pass.allStages_alike r config first second .empty .empty
    ⟨.nil, .nil⟩
  unfold compile
  generalize (Pass.allStages (d := first) r config).run.run .empty = run,
    (Pass.allStages (d := second) r config).run.run .empty = run' at both logs
  obtain ⟨result, log⟩ := run
  obtain ⟨result', log'⟩ := run'
  cases both with
  | ok related => exact ⟨.ok ⟨related.1, related.2, logs.warnings⟩, logs.events⟩
  | error same => exact ⟨.error ⟨same, logs.warnings⟩, logs.events⟩

end Draws

end CrystalModel
