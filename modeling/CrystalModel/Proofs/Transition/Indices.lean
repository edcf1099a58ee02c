import CrystalModel.Energy.Build
import CrystalModel.Proofs.Structure.Build
import CrystalModel.Proofs.Transition.Particles

/-! # Particles that rules name

Exchange pairs and particle sets list particles by index, rules hold bytes. Neither list is checked
against the particles, and the byte of an index forgets what lies above 255. A rule names existing
particles as long as every index on offer is one: the number of particles is checked, and every
index below it fits both a byte and a mask. -/
namespace CrystalModel

namespace ReferenceData.Fit

variable {r : ReferenceData}

theorem byte_of_index (fit : r.Fit) {k : Nat} (exist : k < r.particles.length) :
    (UInt8.ofNat k).toNat = k := by
  rw [UInt8.toNat_ofNat', Nat.mod_eq_of_lt (fit.index_lt exist)]

theorem void_exists (fit : r.Fit) : voidByte.toNat < r.particles.length := by
  have void := fit.void
  unfold ReferenceData.startsWithVoid at void
  cases particles : r.particles with
  | nil => simp [particles] at void
  | cons first rest => exact Nat.zero_lt_succ _

end ReferenceData.Fit

namespace TransitionNetwork

variable {r : ReferenceData} {config : Config} {s : CrystalStructure} {d : DraftTransition}
  {x : Rule} {b : UInt8} {k : Nat}

/-- An active transition offers the particle on its way: an exchange pair there names it, and the
set of the site lists it. -/
def Lent (r : ReferenceData) (config : Config) (s : CrystalStructure) (k : Nat) : Prop :=
  ∃ a sites metropolis group site, Runs r config s a sites metropolis ∧
    (group, site) ∈ a.groups.zip sites ∧ r.Lends group site k

theorem lent_listed (h : Lent r config s k) : ∃ set ∈ r.particleSets, k ∈ set.particles := by
  obtain ⟨_, _, _, _, _, _, _, _, set, _, _, _, found, _, _, _, listed⟩ := h
  exact ⟨set, ReferenceData.mem_of_occupationOf found, listed⟩

/-- The bytes of the rule are indices of existing particles. Each one was offered as it is, has a
bit in the masks, and is not the byte of another index on offer. -/
structure NamesParticles (r : ReferenceData) (config : Config) (s : CrystalStructure) (x : Rule) :
    Prop where
  offered : ∀ b, x.Holds b → b = voidByte ∨ Lent r config s b.toNat
  exist : ∀ b, x.Holds b → b.toNat < r.particles.length
  shift : ∀ b, x.Holds b → b.toNat < particleLimit
  whole : ∀ k, Lent r config s k → x.Holds (UInt8.ofNat k) → (UInt8.ofNat k).toNat = k

section Drafts

variable [Trigonometry]

inductive Drafted (r : ReferenceData) (config : Config) (s : CrystalStructure) :
    DraftTransition → Prop
  | authored {d : DraftTransition} (h : Authored r config s d) : Drafted r config s d
  | reversed {d turned : DraftTransition} (h : Authored r config s d)
      (turn : d.reversed s.encoder = some turned) : Drafted r config s turned

theorem Authored.lent_of_holds (h : Authored r config s d) (hx : x ∈ d.rules) (held : x.Holds b) :
    b = voidByte ∨ ∃ k, Lent r config s k ∧ b = UInt8.ofNat k := by
  obtain ⟨rule, ⟨a, sites, metropolis, states, runs, offered, among⟩, same⟩ := h.enumerated hx
  have own : rule.Holds b := by
    rcases same with rfl | rfl
    · exact held
    · exact Rule.holds_swapped.mp held
  rcases offered_of_holds among own with void | there
  · exact Or.inl void
  · refine (ReferenceData.lent_of_offersAlong offered there).imp_right ?_
    rintro ⟨group, site, k, along, lends, same⟩
    exact ⟨k, ⟨a, sites, metropolis, group, site, runs, along, lends⟩, same⟩

theorem Drafted.lent_of_holds (h : Drafted r config s d) (hx : x ∈ d.rules) (held : x.Holds b) :
    b = voidByte ∨ ∃ k, Lent r config s k ∧ b = UInt8.ofNat k := by
  cases h with
  | authored h => exact h.lent_of_holds hx held
  | reversed h turn =>
    rw [DraftTransition.reversed_rules turn] at hx
    obtain ⟨own, among, rfl⟩ := List.mem_map.mp hx
    exact h.lent_of_holds among (Rule.holds_inverted.mp held)

/-- A rule of a draft names existing particles exactly when no index on offer whose byte it holds
lies behind the particles. -/
theorem Drafted.namesParticles_iff (fit : r.Fit) (h : Drafted r config s d) (hx : x ∈ d.rules) :
    NamesParticles r config s x ↔
      ∀ k, Lent r config s k → x.Holds (UInt8.ofNat k) → k < r.particles.length := by
  constructor
  · intro names k lent held
    rw [← names.whole k lent held]
    exact names.exist _ held
  · intro behind
    have named {b : UInt8} (held : x.Holds b) :
        (b = voidByte ∨ Lent r config s b.toNat) ∧ b.toNat < r.particles.length := by
      rcases h.lent_of_holds hx held with rfl | ⟨k, lent, rfl⟩
      · exact ⟨Or.inl rfl, fit.void_exists⟩
      · have exist := behind k lent held
        rw [fit.byte_of_index exist]
        exact ⟨Or.inr lent, exist⟩
    exact ⟨fun b held => (named held).1, fun b held => (named held).2,
      fun b held => Nat.lt_of_lt_of_le (named held).2 fit.few,
      fun k lent held => fit.byte_of_index (behind k lent held)⟩

theorem fit_of_structured (structured : CrystalStructure.build r config = .ok s) : r.Fit :=
  ReferenceData.checkPlaces_ok_iff.mp (CrystalStructure.sound_of_build structured).places

/-- Rules hold nothing but empty places and the bytes of indices on offer. All of them name existing
particles exactly when none holds the byte of an offered index that no particle has. -/
theorem drafts_nameParticles_iff (r : ReferenceData) (config : Config) (s : CrystalStructure)
    (structured : CrystalStructure.build r config = .ok s) :
    (∀ d, Drafted r config s d → ∀ x ∈ d.rules, ∀ b, x.Holds b →
        b = voidByte ∨ ∃ k, Lent r config s k ∧ b = UInt8.ofNat k) ∧
      ((∀ d, Drafted r config s d → ∀ x ∈ d.rules, NamesParticles r config s x) ↔
        ∀ d, Drafted r config s d → ∀ x ∈ d.rules, ∀ k, Lent r config s k →
          x.Holds (UInt8.ofNat k) → k < r.particles.length) := by
  refine ⟨fun d drafted x hx b held => drafted.lent_of_holds hx held, ?_⟩
  refine forall_congr' fun d => forall_congr' fun drafted => forall_congr' fun x =>
    forall_congr' fun hx => ?_
  exact drafted.namesParticles_iff (fit_of_structured structured) hx

end Drafts

end TransitionNetwork

/-- The chain, whose set lists an index far behind its particles in place of the first one. -/
def ReferenceData.spoofed : ReferenceData := { chain with
  particleSets := [⟨0, "species", [2, 257], .active⟩]
  exchangePairs := [⟨0, 257, 2, false, .active⟩] }

namespace TransitionNetwork

open ReferenceData in
theorem spoofed_names : ∃ s e d x, @CrystalStructure.build rightAngle spoofed plainConfig = .ok s ∧
    Energetics.build spoofed plainConfig s = .ok e ∧
    @Drafted rightAngle spoofed plainConfig s d ∧ x ∈ d.rules ∧ x.start = [1, 2] ∧
    Lent spoofed plainConfig s 257 ∧ ¬ Lent spoofed plainConfig s 1 ∧
    ¬ ∀ d, @Drafted rightAngle spoofed plainConfig s d → ∀ x ∈ d.rules,
      NamesParticles spoofed plainConfig s x := by
  have found : (do
      let s ← @CrystalStructure.build rightAngle spoofed plainConfig
      let _ ← Energetics.build spoofed plainConfig s
      @MetropolisTransition.draft rightAngle ⟨0, "within", 0, 0, 0, .active⟩ spoofed s :
        Except BuildError DraftTransition).toOption.any
      fun d => d.rules.any fun x => decide (x.start = [1, 2]) := by
    decide +kernel
  obtain ⟨d, h, rules⟩ := ok_of_any found
  obtain ⟨s, structured, h⟩ := bind_ok_iff.mp h
  obtain ⟨e, powered, drafted⟩ := bind_ok_iff.mp h
  obtain ⟨x, hx, start⟩ := List.any_eq_true.mp rules
  have start := of_decide_eq_true start
  have own : @Drafted rightAngle spoofed plainConfig s d :=
    @Drafted.authored rightAngle _ _ _ _ (@Authored.metropolis rightAngle _ _ _ _ _
      List.mem_cons_self rfl drafted)
  have lent : Lent spoofed plainConfig s 257 :=
    ⟨_, [0, 0], true, 0, 0, .metropolis ⟨0, "within", 0, 0, 0, .active⟩ List.mem_cons_self rfl rfl,
      by decide, ⟨0, [0], .active⟩, ⟨0, "species", [2, 257], .active⟩, 0,
      ⟨0, 257, 2, false, .active⟩, rfl, rfl, by decide, rfl, Or.inl rfl, by decide⟩
  refine ⟨s, e, d, x, structured, powered, own, hx, start, lent, fun known => ?_, fun names => ?_⟩
  · obtain ⟨set, hset, listed⟩ := lent_listed known
    obtain rfl := List.mem_singleton.mp hset
    simp at listed
  · have behind := (@drafts_nameParticles_iff rightAngle _ _ _ structured).2.mp names d own x hx 257
      lent (Or.inl (by rw [start]; decide))
    exact absurd behind (by decide)

end TransitionNetwork

end CrystalModel
