import CrystalModel.Proofs.Energy.Occupation
import CrystalModel.Structure.Build

/-! # Which occupations a cluster takes

An occupation is looked up by its code, in every order of the layout, and a missing code is
forbidden. The code knows the byte of an index. Where a table was made, the first eight partners
allow the bytes of their particles; they allow the particles themselves as long as these fit a
byte. -/
namespace CrystalModel

namespace GroupLayout

variable {l : GroupLayout} {width : Float} {partners : Nat} {entry : GroupEnergy}
  {t t' : EnergyTable}

/-- The layout has a row for the center, and a column for the occupation in every order. -/
structure Admits (l : GroupLayout) (partners : Nat) (entry : GroupEnergy) : Prop where
  length : entry.occupation.length = partners
  center : ∃ row, l.centers.idxOf? entry.center = some row
  column : ∀ order ∈ l.orders, stateCode (permuted order entry.occupation) ∈ l.codes

theorem admits_of_assignEntry (h : l.assignEntry width partners t entry = .ok t') :
    l.Admits partners entry := by
  obtain ⟨fits, row, center, h⟩ := assignEntry_ok_iff.mp h
  refine ⟨fits, ⟨row, center⟩, ?_⟩
  refine foldlM_ok_induction (motive := fun done _ => ∀ order ∈ done,
    stateCode (permuted order entry.occupation) ∈ l.codes) h (fun _ listed => by cases listed) ?_
  intro done order _ _ _ _ before step listed among
  rcases List.mem_append.mp among with earlier | last
  · exact before listed earlier
  obtain rfl := List.mem_singleton.mp last
  obtain ⟨column, found, _⟩ := assignOrder_ok_iff.mp step
  exact mem_of_idxOf? found

theorem admits_of_table {i : GroupInteraction} (h : i.table l width = .ok t) :
    ∀ entry ∈ i.energies, l.Admits i.geometry.length entry := by
  refine foldlM_ok_induction
    (motive := fun done _ => ∀ entry ∈ done, l.Admits i.geometry.length entry) h
    (fun _ listed => by cases listed) ?_
  intro done entry _ _ _ _ before step listed among
  rcases List.mem_append.mp among with earlier | last
  · exact before listed earlier
  · obtain rfl := List.mem_singleton.mp last
    exact admits_of_assignEntry step

end GroupLayout

namespace ReferenceData

variable {r : ReferenceData} {partners occupation : List Nat}

theorem Fit.code_listed_iff (fit : r.Fit) (same : occupation.length = partners.length) :
    occupationCode occupation ∈ GroupLayout.codesOf (partners.map r.occupantsOf) ↔
      ∃ o, r.Fills partners o ∧ o.take pathLimit = (occupation.take pathLimit).map (· % 256) := by
  rw [GroupLayout.mem_codesOf]
  refine exists_congr fun o => and_congr_right fun filled => ?_
  rw [occupationCode_inj (filled.length_eq.symm.trans same.symm), map_mod_of_small]
  exact fun p hp => fit.small_of_fills filled p (List.mem_of_mem_take hp)

theorem Fit.allows_iff (fit : r.Fit) (same : occupation.length = partners.length)
    (listed : occupationCode occupation ∈ GroupLayout.codesOf (partners.map r.occupantsOf))
    {k home p : Nat} (early : k < pathLimit) (hhome : partners[k]? = some home)
    (hp : occupation[k]? = some p) :
    r.Allows home (p % 256) ∧ (r.Allows home p ↔ p < 256) := by
  obtain ⟨o, filled, bytes⟩ := (fit.code_listed_iff same).mp listed
  obtain ⟨q, hq, allowed⟩ := aligned_left filled hhome
  have byte : q = p % 256 := by
    have here := congrArg (·[k]?) bytes
    rw [List.getElem?_map, List.getElem?_take_of_lt early, List.getElem?_take_of_lt early, hq, hp,
      Option.map_some, Option.some.injEq] at here
    exact here
  refine ⟨byte ▸ allowed, fit.lt_of_allows, fun small => ?_⟩
  rwa [byte, Nat.mod_eq_of_lt small] at allowed

/-- All particles are allowed exactly when the first ones are bytes and the others, which no code
holds, are allowed. -/
theorem Fit.fills_iff (fit : r.Fit) (same : occupation.length = partners.length)
    (listed : occupationCode occupation ∈ GroupLayout.codesOf (partners.map r.occupantsOf)) :
    r.Fills partners occupation ↔ (∀ p ∈ occupation.take pathLimit, p < 256) ∧
      r.Fills (partners.drop pathLimit) (occupation.drop pathLimit) := by
  constructor
  · intro filled
    refine ⟨fun p hp => fit.small_of_fills filled p (List.mem_of_mem_take hp), ?_⟩
    exact List.forall₂_drop _ filled
  · rintro ⟨small, later⟩
    obtain ⟨o, filled, bytes⟩ := (fit.code_listed_iff same).mp listed
    rw [map_mod_of_small small] at bytes
    have early : r.Fills (partners.take pathLimit) (occupation.take pathLimit) :=
      bytes ▸ List.forall₂_take pathLimit filled
    have allowed : List.Forall₂ r.Allows partners occupation := by
      simpa only [List.take_append_drop] using List.rel_append early later
    exact allowed

end ReferenceData

variable {r : ReferenceData} {config : Config} {s : CrystalStructure}

/-- In a cluster that has a table the center of every energy is allowed, and each of the first eight
partners allows the byte of its particle. The particles themselves are allowed exactly when they
are bytes, apart from those behind the eighth partner, which no code holds. -/
theorem group_occupations_iff {m : GroupModel} {i : GroupInteraction} {site : Site}
    {t : GroupTable} (checked : r.checkPlaces = .ok ())
    (hi : r.groupInteractions[m.interaction]? = some i)
    (hsite : r.sites[i.centerSite]? = some site)
    (identity : List.range i.geometry.length ∈ s.symmetry.sitePermutations site.vector i.geometry)
    (made : groupEnergies r config s m = .ok t) :
    ∃ partners, i.geometry.mapM s.partnerSite = some partners ∧ ∀ entry ∈ i.energies,
      r.Allows i.centerSite entry.center ∧ entry.occupation.length = partners.length ∧
      (∀ k < pathLimit, ∀ home p, partners[k]? = some home → entry.occupation[k]? = some p →
        r.Allows home (p % 256) ∧ (r.Allows home p ↔ p < 256)) ∧
      (r.Fills partners entry.occupation ↔ (∀ p ∈ entry.occupation.take pathLimit, p < 256) ∧
        r.Fills (partners.drop pathLimit) (entry.occupation.drop pathLimit)) := by
  have fit := ReferenceData.checkPlaces_ok_iff.mp checked
  obtain ⟨_, l, hi', layout, table, _⟩ := groupEnergies_ok_iff.mp made
  obtain rfl := Option.some.inj (hi.symm.trans hi')
  obtain ⟨_, partners, hsite', hpartners, rfl⟩ := GroupInteraction.layout_ok_iff.mp layout
  obtain rfl := Option.some.inj (hsite.symm.trans hsite')
  refine ⟨partners, hpartners, fun entry hentry => ?_⟩
  have admitted := GroupLayout.admits_of_table table entry hentry
  have same : entry.occupation.length = partners.length :=
    admitted.length.trans (mapM_some_iff.mp hpartners).length_eq
  have listed := admitted.column _ identity
  rw [← admitted.length, GroupLayout.permuted_range] at listed
  obtain ⟨row, center⟩ := admitted.center
  refine ⟨?_, same, fun k early home p => fit.allows_iff same listed early,
    fit.fills_iff same listed⟩
  exact ReferenceData.mem_occupantsOf.mp (mem_of_idxOf? center)

namespace ReferenceData

def swapped (energies : List GroupEnergy) : GroupInteraction :=
  ⟨0, 0, [⟨1.0, 0.0, 0.0⟩, ⟨-1.0, 0.0, 0.0⟩], energies, .active⟩

def clustered (energies : List GroupEnergy) : ReferenceData := { chain with
  spaceGroup := ⟨2, "P-1", ["x,y,z", "-x,-y,-z"]⟩
  groupInteractions := [swapped energies] }

/-- The energy names a particle that is not there. The byte of its index is the index of another
one. -/
def aliased : List GroupEnergy := [⟨1, [257, 2], 0.75⟩]

/-- The inversion carries the first and the last energy onto the same cells. -/
def overlapping : List GroupEnergy :=
  [⟨1, [1, 2], 0.25⟩, ⟨2, [2, 2], 0.125⟩, ⟨1, [2, 1], 0.5⟩]

def tolerantConfig : Config := { plainConfig with energyTolerance := 0.25 }

def clusteredLayout : GroupLayout := ⟨[1, 2], [257, 258, 513, 514], [[0, 1], [1, 0]]⟩

structure Clusters (energies : List GroupEnergy) (s : CrystalStructure) : Prop where
  structural : @CrystalStructure.build rightAngle (clustered energies) tolerantConfig = .ok s
  model : s.groupModels.map (·.interaction) = [0]
  partners : (swapped energies).geometry.mapM s.partnerSite = some [0, 0]
  orders : s.symmetry.sitePermutations ⟨0.0, 0.0, 0.0⟩ (swapped energies).geometry =
    [[0, 1], [1, 0]]

theorem clustered_structure : ∀ energies ∈ [aliased, overlapping], ∃ s, Clusters energies s := by
  have found : ∀ energies ∈ [aliased, overlapping],
      (@CrystalStructure.build rightAngle (clustered energies) tolerantConfig).toOption.any fun s =>
        decide (s.groupModels.map (·.interaction) = [0] ∧
          (swapped energies).geometry.mapM s.partnerSite = some [0, 0] ∧
          s.symmetry.sitePermutations ⟨0.0, 0.0, 0.0⟩ (swapped energies).geometry =
            [[0, 1], [1, 0]]) := by
    decide +kernel
  intro energies h
  obtain ⟨s, structural, seen⟩ := ok_of_any (found energies h)
  obtain ⟨model, partners, orders⟩ := of_decide_eq_true seen
  exact ⟨s, structural, model, partners, orders⟩

theorem Clusters.tabled {energies : List GroupEnergy} {s : CrystalStructure}
    (h : Clusters energies s) {table : EnergyTable}
    (filled : (swapped energies).table clusteredLayout 0.25 = .ok table) :
    ∃ m t, s.groupModels = [m] ∧ m.interaction = 0 ∧ t.table = table ∧
      groupEnergies (clustered energies) tolerantConfig s m = .ok t := by
  obtain ⟨m, only, interaction⟩ := List.map_eq_singleton_iff.mp h.model
  have occupants : (clustered energies).occupantsOf 0 = [1, 2] :=
    Numeric.ascending_of_perm (.refl [1, 2]) (by decide)
  have codes : GroupLayout.codesOf [[1, 2], [1, 2]] = [257, 258, 513, 514] :=
    Numeric.ascending_of_perm (by decide +kernel) (by decide)
  refine ⟨m, ⟨m.modelId, 0, clusteredLayout.centers, clusteredLayout.codes, table⟩, only,
    interaction, rfl, ?_⟩
  refine groupEnergies_ok_iff.mpr ⟨swapped energies, clusteredLayout, by rw [interaction]; rfl,
    ?_, filled, rfl, rfl, rfl, rfl⟩
  refine GroupInteraction.layout_ok_iff.mpr
    ⟨⟨0, "a", ⟨0.0, 0.0, 0.0⟩, 0, .stable, .active⟩, [0, 0], rfl, h.partners, ?_⟩
  rw [h.orders, List.map_cons, List.map_cons, List.map_nil, occupants, codes]
  exact congrArg (fun centers => GroupLayout.mk centers _ _) occupants.symm

end ReferenceData

open ReferenceData in
theorem aliased_occupations : ∃ (s : CrystalStructure) (m : GroupModel) (t : GroupTable),
    @CrystalStructure.build rightAngle (clustered aliased) tolerantConfig = .ok s ∧
    s.groupModels = [m] ∧ groupEnergies (clustered aliased) tolerantConfig s m = .ok t ∧
    t.table.rows = [[0.0, 0.75, 0.75, 0.0], [0.0, 0.0, 0.0, 0.0]] ∧
    (clustered aliased).Allows 0 1 ∧ ¬(clustered aliased).Allows 0 257 ∧
    ¬(clustered aliased).Fills [0, 0] [257, 2] := by
  obtain ⟨s, h⟩ := clustered_structure aliased (by decide)
  have filled : (swapped aliased).table clusteredLayout 0.25 =
      .ok ⟨2, 4, [((0, 1), 0.75), ((0, 2), 0.75)]⟩ := by rfl
  obtain ⟨m, t, only, interaction, table, made⟩ := h.tabled filled
  have identity : List.range 2 ∈ s.symmetry.sitePermutations ⟨0.0, 0.0, 0.0⟩
      (swapped aliased).geometry := by
    rw [h.orders]
    exact List.mem_cons_self
  have checked : (clustered aliased).checkPlaces = .ok () := by rfl
  have known : (clustered aliased).groupInteractions[m.interaction]? = some (swapped aliased) := by
    rw [interaction]
    rfl
  obtain ⟨partners, hpartners, each⟩ := group_occupations_iff checked known rfl identity made
  obtain rfl := Option.some.inj (h.partners.symm.trans hpartners)
  obtain ⟨-, -, bytes, fills⟩ := each ⟨1, [257, 2], 0.75⟩ List.mem_cons_self
  obtain ⟨lends, itself⟩ := bytes 0 (by decide) 0 257 rfl rfl
  refine ⟨s, m, t, h.structural, only, made, ?_, lends, ?_, ?_⟩
  · rw [table]
    rfl
  · exact fun allowed => absurd (itself.mp allowed) (by decide)
  · exact fun filled => absurd ((fills.mp filled).1 257 (by decide)) (by decide)

end CrystalModel
