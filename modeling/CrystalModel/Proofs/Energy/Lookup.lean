import CrystalModel.Proofs.Energy.Admission
import CrystalModel.Proofs.Energy.Build

/-! # Looking up the energy of a cluster

A table has a row for every particle of the center and a column for every occupation of the
partners, both in ascending order. Where the partners fit a code, the cell of a center and an
occupation holds the last energy that an order carries onto it. -/
namespace CrystalModel

namespace GroupLayout

variable {l : GroupLayout} {width : Float} {partners : Nat} {entry : GroupEnergy}
  {t t' : EnergyTable}

/-- One of the orders takes the energy to the cell. -/
def Reaches (l : GroupLayout) (orders : List (List Nat)) (entry : GroupEnergy)
    (row column : Nat) : Prop :=
  ∃ order ∈ orders, l.Assigns entry order ((row, column), entry.energy)

theorem assigned?_of_assignOrder {order : List Nat} {r : Nat}
    (center : l.centers.idxOf? entry.center = some r)
    (h : l.assignOrder width entry r t order = .ok t') (row column : Nat) :
    (l.Assigns entry order ((row, column), entry.energy) →
      t'.assigned? row column = some entry.energy) ∧
    (¬l.Assigns entry order ((row, column), entry.energy) →
      t'.assigned? row column = t.assigned? row column) := by
  obtain ⟨c, code, h⟩ := assignOrder_ok_iff.mp h
  rw [EnergyTable.assigned?_of_assign h, Assigns, center, code]
  constructor
  · rintro ⟨here, there, _⟩
    rw [if_pos ⟨(Option.some.inj here).symm, (Option.some.inj there).symm⟩]
  · intro apart
    refine if_neg fun same => apart ⟨congrArg some same.1.symm, congrArg some same.2.symm, rfl⟩

theorem assigned?_of_assignEntry (h : l.assignEntry width partners t entry = .ok t')
    (row column : Nat) :
    (l.Reaches l.orders entry row column → t'.assigned? row column = some entry.energy) ∧
      (¬l.Reaches l.orders entry row column →
        t'.assigned? row column = t.assigned? row column) := by
  obtain ⟨_, r, center, h⟩ := assignEntry_ok_iff.mp h
  refine foldlM_ok_induction (motive := fun done t' =>
    (l.Reaches done entry row column → t'.assigned? row column = some entry.energy) ∧
      (¬l.Reaches done entry row column → t'.assigned? row column = t.assigned? row column)) h
    ⟨?_, fun _ => rfl⟩ ?_
  · rintro ⟨_, listed, _⟩
    cases listed
  intro done order _ u u' _ before step
  obtain ⟨hit, miss⟩ := assigned?_of_assignOrder center step row column
  by_cases last : l.Assigns entry order ((row, column), entry.energy)
  · refine ⟨fun _ => hit last, fun apart => absurd ⟨order, ?_, last⟩ apart⟩
    exact List.mem_append_right done List.mem_cons_self
  · have same : l.Reaches (done ++ [order]) entry row column ↔ l.Reaches done entry row column := by
      simp [Reaches, or_and_right, exists_or, last]
    rw [same, miss last]
    exact before

theorem assigned?_of_table {i : GroupInteraction} (h : i.table l width = .ok t)
    {row column : Nat} {reaches : GroupEnergy → Bool}
    (decided : ∀ entry ∈ i.energies, reaches entry = true ↔ l.Reaches l.orders entry row column) :
    t.assigned? row column = (i.energies.reverse.find? reaches).map (·.energy) := by
  refine foldlM_ok_induction (motive := fun done t =>
    t.assigned? row column = (done.reverse.find? reaches).map (·.energy)) h rfl ?_
  intro done entry rest u u' split before step
  have listed : entry ∈ i.energies := by
    rw [split]
    exact List.mem_append_right done List.mem_cons_self
  obtain ⟨hit, miss⟩ := assigned?_of_assignEntry step row column
  -- from the end the new entry comes first, and it hides the others where it reaches the cell
  rw [List.reverse_append, List.reverse_singleton, List.singleton_append, List.find?_cons]
  cases here : reaches entry with
  | true => exact hit ((decided entry listed).mp here)
  | false =>
    refine (miss fun reached => ?_).trans before
    exact Bool.false_ne_true (here.symm.trans ((decided entry listed).mpr reached))

end GroupLayout

/-- The last energy of the interaction that one of the orders carries from its own occupation onto
the given one, or zero. -/
def GroupInteraction.authored (i : GroupInteraction) (orders : List (List Nat)) (center : Nat)
    (occupation : List Nat) : Float :=
  ((i.energies.reverse.find? fun entry => entry.center = center ∧
    ∃ order ∈ orders, GroupLayout.Carries order entry.occupation occupation).map
      (·.energy)).getD 0.0

namespace GroupLayout

variable {l : GroupLayout} {width : Float} {entry : GroupEnergy} {center row column : Nat}
  {o : List Nat}

theorem reaches_iff (hrow : l.centers.idxOf? center = some row)
    (hcolumn : l.codes.idxOf? (occupationCode o) = some column)
    (perms : ∀ order ∈ l.orders, order.Perm (List.range entry.occupation.length))
    (same : o.length = entry.occupation.length) (short : entry.occupation.length ≤ pathLimit)
    (small : ∀ p ∈ entry.occupation, p < 256) (smallO : ∀ p ∈ o, p < 256) :
    l.Reaches l.orders entry row column ↔
      entry.center = center ∧ ∃ order ∈ l.orders, Carries order entry.occupation o := by
  have assigns : ∀ order ∈ l.orders, l.Assigns entry order ((row, column), entry.energy) ↔
      entry.center = center ∧ Carries order entry.occupation o := by
    intro order horder
    rw [Assigns, idxOf?_iff_eq hrow, idxOf?_iff_eq hcolumn,
      permuted_code_iff (perms order horder) same short small smallO]
    simp
  constructor
  · rintro ⟨order, horder, assigned⟩
    obtain ⟨own, carried⟩ := (assigns order horder).mp assigned
    exact ⟨own, order, horder, carried⟩
  · rintro ⟨own, order, horder, carried⟩
    exact ⟨order, horder, (assigns order horder).mpr ⟨own, carried⟩⟩

theorem energy_of_table {i : GroupInteraction} {t : EnergyTable} (h : i.table l width = .ok t)
    (hrow : l.centers.idxOf? center = some row)
    (hcolumn : l.codes.idxOf? (occupationCode o) = some column)
    (perms : ∀ order ∈ l.orders, order.Perm (List.range i.geometry.length))
    (same : o.length = i.geometry.length) (short : i.geometry.length ≤ pathLimit)
    (small : ∀ entry ∈ i.energies, ∀ p ∈ entry.occupation, p < 256) (smallO : ∀ p ∈ o, p < 256) :
    t.energy row column = i.authored l.orders center o := by
  rw [EnergyTable.energy, assigned?_of_table h, GroupInteraction.authored]
  intro entry hentry
  have fits := (admits_of_table h entry hentry).length
  rw [decide_eq_true_eq, reaches_iff hrow hcolumn (by rwa [fits]) (same.trans fits.symm)
    (fits.le.trans short) (small entry hentry) smallO]

end GroupLayout

/-- The rows belong to the particles of the center and the columns to the occupations of the
partners, both in ascending order. A lookup answers where both are allowed, and only there. -/
structure GroupTable.Addressed (r : ReferenceData) (i : GroupInteraction) (partners : List Nat)
    (orders : List (List Nat)) (t : GroupTable) : Prop where
  rowOf : ∀ k, r.Allows i.centerSite k ↔
    ∃ row, row < t.table.rowCount ∧ t.centers.idxOf? k = some row
  rows : ∀ row < t.table.rowCount, ∃ k, t.centers.idxOf? k = some row
  ordered : ∀ a b row row', t.centers.idxOf? a = some row → t.centers.idxOf? b = some row' →
    (row < row' ↔ a < b)
  columns : t.table.columnCount = t.codes.length
  ascending : t.codes.Pairwise (· < ·)
  codes : ∀ code, code ∈ t.codes ↔ ∃ o, r.Fills partners o ∧ occupationCode o = code
  distinct : ∀ a b, r.Fills partners a → r.Fills partners b →
    occupationCode a = occupationCode b → a = b
  found : ∀ center o, r.Allows i.centerSite center → r.Fills partners o →
    t.energy? center (occupationCode o) = some (i.authored orders center o)
  absent : ∀ center code, (¬r.Allows i.centerSite center ∨
    ¬∃ o, r.Fills partners o ∧ occupationCode o = code) → t.energy? center code = none

variable {r : ReferenceData} {config : Config} {s : CrystalStructure}

/-- A table of a cluster of up to eight partners answers every lookup by the last energy that an
order carries onto the occupation that the code belongs to. Tables are made of checked data only,
where no two particles share a byte. -/
theorem groupEnergies_addressed {m : GroupModel} {i : GroupInteraction} {site : Site}
    {t : GroupTable} (checked : r.checkPlaces = .ok ())
    (hi : r.groupInteractions[m.interaction]? = some i)
    (hsite : r.sites[i.centerSite]? = some site) (short : i.geometry.length ≤ pathLimit)
    (small : ∀ entry ∈ i.energies, ∀ p ∈ entry.occupation, p < 256)
    (orders : ∀ order ∈ s.symmetry.sitePermutations site.vector i.geometry,
      order.Perm (List.range i.geometry.length))
    (made : groupEnergies r config s m = .ok t) :
    ∃ partners, i.geometry.mapM s.partnerSite = some partners ∧
      t.Addressed r i partners (s.symmetry.sitePermutations site.vector i.geometry) := by
  have fit := ReferenceData.checkPlaces_ok_iff.mp checked
  obtain ⟨_, l, hi', layout, table, _, _, centers, codes⟩ := groupEnergies_ok_iff.mp made
  obtain rfl := Option.some.inj (hi.symm.trans hi')
  obtain ⟨_, partners, hsite', hpartners, rfl⟩ := GroupInteraction.layout_ok_iff.mp layout
  obtain rfl := Option.some.inj (hsite.symm.trans hsite')
  have partnerCount := (mapM_some_iff.mp hpartners).length_eq
  obtain ⟨rowCount, columnCount⟩ := GroupInteraction.table_size table
  rw [← centers] at rowCount
  have rowOf (k : Nat) : r.Allows i.centerSite k ↔
      ∃ row, row < t.table.rowCount ∧ t.centers.idxOf? k = some row := by
    rw [rowCount, ← mem_iff_idxOf?, centers, ReferenceData.mem_occupantsOf]
  have coded (code : Int64) :
      code ∈ t.codes ↔ ∃ o, r.Fills partners o ∧ occupationCode o = code := by
    rw [codes]
    exact GroupLayout.mem_codesOf
  have ascending : t.centers.Pairwise (· < ·) := by
    rw [centers]
    exact ReferenceData.occupantsOf_ascending r i.centerSite
  refine ⟨partners, hpartners, {
    rowOf
    rows := ?_
    ordered := fun a b row row' ha hb => idxOf?_lt_iff ascending ha hb
    columns := codes ▸ columnCount
    ascending := codes ▸ Numeric.ascending_pairwise _
    codes := coded
    distinct := ?_
    found := ?_
    absent := ?_ }⟩
  · intro row inside
    rw [rowCount] at inside
    exact ⟨_, idxOf?_of_nodup (ascending.imp Nat.ne_of_lt) (List.getElem?_eq_getElem inside)⟩
  · intro a b filledA filledB
    refine eq_of_occupationCode (filledA.length_eq.symm.trans filledB.length_eq) ?_
      (fit.small_of_fills filledA) (fit.small_of_fills filledB)
    rw [← filledA.length_eq, ← partnerCount]
    exact short
  · intro center o allowed filled
    obtain ⟨row, _, hrow⟩ := (rowOf center).mp allowed
    obtain ⟨column, _, hcolumn⟩ := mem_iff_idxOf?.mp ((coded _).mpr ⟨o, filled, rfl⟩)
    have energy := GroupLayout.energy_of_table table (centers ▸ hrow) (codes ▸ hcolumn) orders
      (filled.length_eq.symm.trans partnerCount.symm) short small (fit.small_of_fills filled)
    rw [GroupTable.energy?, hrow, hcolumn, ← energy]
    rfl
  · rintro center code (forbidden | unlisted)
    · have missing : t.centers.idxOf? center = none := by
        rw [centers, List.idxOf?_eq_none_iff, ReferenceData.mem_occupantsOf]
        exact forbidden
      rw [GroupTable.energy?, missing]
      rfl
    · have missing : t.codes.idxOf? code = none := by
        rw [List.idxOf?_eq_none_iff, coded]
        exact unlisted
      rw [GroupTable.energy?, missing]
      cases t.centers.idxOf? center <;> rfl

open ReferenceData in
theorem overlapping_addressed : ∃ (s : CrystalStructure) (m : GroupModel) (t : GroupTable),
    @CrystalStructure.build rightAngle (clustered overlapping) tolerantConfig = .ok s ∧
    s.groupModels = [m] ∧ groupEnergies (clustered overlapping) tolerantConfig s m = .ok t ∧
    t.Addressed (clustered overlapping) (swapped overlapping) [0, 0] [[0, 1], [1, 0]] ∧
    t.table.rows = [[0.0, 0.5, 0.5, 0.0], [0.0, 0.0, 0.0, 0.125]] ∧
    t.energy? 1 (occupationCode [1, 2]) = some 0.5 ∧
    t.energy? 2 (occupationCode [1, 2]) = some 0.0 ∧
    t.energy? 0 (occupationCode [1, 2]) = none := by
  obtain ⟨s, h⟩ := clustered_structure overlapping (by decide)
  have filled : (swapped overlapping).table clusteredLayout 0.25 = .ok ⟨2, 4,
      [((0, 2), 0.5), ((0, 1), 0.5), ((1, 3), 0.125), ((1, 3), 0.125), ((0, 1), 0.25),
        ((0, 2), 0.25)]⟩ := by rfl
  obtain ⟨m, t, only, interaction, table, made⟩ := h.tabled filled
  have checked : (clustered overlapping).checkPlaces = .ok () := by rfl
  have known : (clustered overlapping).groupInteractions[m.interaction]? =
      some (swapped overlapping) := by
    rw [interaction]
    rfl
  have perms : ∀ order ∈ s.symmetry.sitePermutations ⟨0.0, 0.0, 0.0⟩
      (swapped overlapping).geometry, order.Perm (List.range 2) := by
    rw [h.orders]
    decide
  have small : ∀ entry ∈ (swapped overlapping).energies, ∀ p ∈ entry.occupation, p < 256 := by
    decide
  obtain ⟨partners, hpartners, addressed⟩ :=
    groupEnergies_addressed checked known rfl (by decide) small perms made
  obtain rfl := Option.some.inj (h.partners.symm.trans hpartners)
  change t.Addressed _ _ _ (s.symmetry.sitePermutations ⟨0.0, 0.0, 0.0⟩ _) at addressed
  rw [h.orders] at addressed
  have held : (clustered overlapping).Allows 0 1 ∧ (clustered overlapping).Allows 0 2 :=
    ⟨⟨_, _, _, rfl, rfl, by decide, rfl, rfl⟩, ⟨_, _, _, rfl, rfl, by decide, rfl, rfl⟩⟩
  have fills : (clustered overlapping).Fills [0, 0] [1, 2] := .cons held.1 (.cons held.2 .nil)
  refine ⟨s, m, t, h.structural, only, made, addressed, ?_, ?_, ?_, ?_⟩
  · rw [table]
    rfl
  · rw [addressed.found 1 [1, 2] held.1 fills]
    rfl
  · rw [addressed.found 2 [1, 2] held.2 fills]
    rfl
  · refine addressed.absent 0 _ (Or.inl ?_)
    rintro ⟨home, set, _, hhome, hset, listed, _⟩
    obtain rfl := Option.some.inj hhome
    obtain rfl := Option.some.inj hset
    revert listed
    decide

end CrystalModel
