import CrystalModel.Energy.Build
import CrystalModel.Proofs.Fallible

/-! # What a group table holds

Every authored energy is assigned once for each order of the layout, and nothing else is
assigned. -/
namespace CrystalModel

open CrystalStructure

variable {l : GroupLayout} {width : Float}

theorem EnergyTable.assign_ok {row column : Nat} {value : Float} {t t' : EnergyTable}
    (h : t.assign width row column value = .ok t') :
    t' = { t with assigned := ((row, column), value) :: t.assigned } := by
  unfold EnergyTable.assign at h
  split at h
  · exact (Except.ok.inj h).symm
  · split at h
    · cases h
    · exact (Except.ok.inj h).symm

theorem EnergyTable.assigned?_of_assign {row column : Nat} {value : Float} {t t' : EnergyTable}
    (h : t.assign width row column value = .ok t') (i j : Nat) :
    t'.assigned? i j = if i = row ∧ j = column then some value else t.assigned? i j := by
  rw [assign_ok h, assigned?, assigned?, List.lookup_cons]
  by_cases here : i = row ∧ j = column
  · rw [if_pos here, here.1, here.2, beq_self_eq_true]
  · have apart : ((i, j) == (row, column)) = false := by
      rw [beq_eq_false_iff_ne, ne_eq, Prod.mk.injEq]
      exact here
    rw [if_neg here, apart]

/-- What an entry assigns in one order: its own energy, in the row of its center and the column of
its occupation in that order. -/
def GroupLayout.Assigns (l : GroupLayout) (entry : GroupEnergy) (order : List Nat)
    (x : (Nat × Nat) × Float) : Prop :=
  l.centers.idxOf? entry.center = some x.1.1 ∧
    l.codes.idxOf? (stateCode (GroupLayout.permuted order entry.occupation)) = some x.1.2 ∧
    entry.energy = x.2

theorem GroupLayout.assignOrder_ok_iff {entry : GroupEnergy} {order : List Nat} {row : Nat}
    {t t' : EnergyTable} : l.assignOrder width entry row t order = .ok t' ↔
      ∃ column, l.codes.idxOf? (stateCode (permuted order entry.occupation)) = some column ∧
        t.assign width row column entry.energy = .ok t' := by
  unfold GroupLayout.assignOrder
  cases l.codes.idxOf? (stateCode (permuted order entry.occupation)) <;> simp

theorem GroupLayout.assignEntry_ok_iff {partners : Nat} {entry : GroupEnergy}
    {t t' : EnergyTable} : l.assignEntry width partners t entry = .ok t' ↔
      entry.occupation.length = partners ∧ ∃ row, l.centers.idxOf? entry.center = some row ∧
        l.orders.foldlM (l.assignOrder width entry row) t = .ok t' := by
  unfold GroupLayout.assignEntry
  by_cases fits : entry.occupation.length = partners
  · rw [if_neg (not_not.mpr fits), and_iff_right fits]
    cases l.centers.idxOf? entry.center <;> simp
  · rw [if_pos fits]
    exact iff_of_false nofun fun h => fits h.1

theorem GroupLayout.mem_assignOrder {entry : GroupEnergy} {order : List Nat} {row : Nat}
    {t t' : EnergyTable} {x : (Nat × Nat) × Float}
    (center : l.centers.idxOf? entry.center = some row)
    (h : l.assignOrder width entry row t order = .ok t') :
    x ∈ t'.assigned ↔ x ∈ t.assigned ∨ l.Assigns entry order x := by
  obtain ⟨column, code, h⟩ := assignOrder_ok_iff.mp h
  rw [EnergyTable.assign_ok h, List.mem_cons, Assigns, center, code, or_comm]
  refine or_congr_right ⟨?_, ?_⟩
  · rintro rfl
    exact ⟨rfl, rfl, rfl⟩
  · rintro ⟨inRow, inColumn, same⟩
    exact Prod.ext (Prod.ext (Option.some.inj inRow).symm (Option.some.inj inColumn).symm)
      same.symm

theorem GroupLayout.mem_assignEntry {partners : Nat} {entry : GroupEnergy} {t t' : EnergyTable}
    {x : (Nat × Nat) × Float} (h : l.assignEntry width partners t entry = .ok t') :
    x ∈ t'.assigned ↔ x ∈ t.assigned ∨ ∃ order ∈ l.orders, l.Assigns entry order x := by
  obtain ⟨_, row, center, h⟩ := assignEntry_ok_iff.mp h
  refine foldlM_ok_induction (motive := fun done t' =>
    x ∈ t'.assigned ↔ x ∈ t.assigned ∨ ∃ order ∈ done, l.Assigns entry order x) h (by simp) ?_
  intro done order _ _ _ _ before step
  rw [mem_assignOrder center step, before, or_assoc]
  simp [or_and_right, exists_or]

/-- A table holds what its entries assign in the orders of its layout, and nothing else. -/
theorem GroupInteraction.mem_table {i : GroupInteraction} {t : EnergyTable}
    {x : (Nat × Nat) × Float} (h : i.table l width = .ok t) :
    x ∈ t.assigned ↔ ∃ entry ∈ i.energies, ∃ order ∈ l.orders, l.Assigns entry order x := by
  refine foldlM_ok_induction (motive := fun done t =>
    x ∈ t.assigned ↔ ∃ entry ∈ done, ∃ order ∈ l.orders, l.Assigns entry order x) h
    (by simp [EnergyTable.empty]) ?_
  intro done entry _ _ _ _ before step
  rw [GroupLayout.mem_assignEntry step, before]
  simp [or_and_right, exists_or]

variable {r : ReferenceData} {config : Config} {s : CrystalStructure}

def CrystalStructure.partnerSite (s : CrystalStructure) (partner : Point) : Option Nat :=
  (s.encoder.encode partner).map fun v => (siteAt s.positionSites v).getD 0

theorem GroupInteraction.partnerParticles_ok_iff {points : List Point}
    {particles : List (List Nat)} : points.mapM (partnerParticles r s) = .ok particles ↔
      ∃ partners, points.mapM s.partnerSite = some partners ∧
        partners.map r.occupantsOf = particles := by
  have one {partner : Point} {ps : List Nat} : partnerParticles r s partner = .ok ps ↔
      ∃ k, s.partnerSite partner = some k ∧ r.occupantsOf k = ps := by
    unfold partnerParticles partnerSite
    cases s.encoder.encode partner <;> simp
  induction points generalizing particles with
  | nil => simp [pure, Except.pure, eq_comm]
  | cons point rest ih =>
    simp only [List.mapM_cons, bind_ok_iff, pure_ok_iff, one, ih, Option.bind_eq_bind,
      Option.bind_eq_some_iff, Option.pure_def, Option.some.injEq]
    constructor
    · rintro ⟨_, ⟨k, hk, rfl⟩, _, ⟨partners, hpartners, rfl⟩, rfl⟩
      exact ⟨k :: partners, ⟨k, hk, partners, hpartners, rfl⟩, rfl⟩
    · rintro ⟨_, ⟨k, hk, partners, hpartners, rfl⟩, rfl⟩
      exact ⟨_, ⟨k, hk, rfl⟩, _, ⟨partners, hpartners, rfl⟩, rfl⟩

theorem GroupInteraction.layout_ok_iff {i : GroupInteraction} {l : GroupLayout} :
    i.layout r s = .ok l ↔ ∃ site partners, r.sites[i.centerSite]? = some site ∧
      i.geometry.mapM s.partnerSite = some partners ∧
      l = ⟨r.occupantsOf i.centerSite, GroupLayout.codesOf (partners.map r.occupantsOf),
        s.symmetry.sitePermutations site.vector i.geometry⟩ := by
  unfold GroupInteraction.layout
  cases r.sites[i.centerSite]? with
  | none => simp
  | some site =>
    simp only [bind_ok_iff, pure_ok_iff, partnerParticles_ok_iff, Option.some.injEq]
    constructor
    · rintro ⟨_, ⟨partners, hpartners, rfl⟩, rfl⟩
      exact ⟨site, partners, rfl, hpartners, rfl⟩
    · rintro ⟨_, partners, rfl, hpartners, rfl⟩
      exact ⟨_, ⟨partners, hpartners, rfl⟩, rfl⟩

theorem groupEnergies_ok_iff {m : GroupModel} {t : GroupTable} :
    groupEnergies r config s m = .ok t ↔ ∃ i l, r.groupInteractions[m.interaction]? = some i ∧
      i.layout r s = .ok l ∧ i.table l config.energyTolerance = .ok t.table ∧
      t.modelId = m.modelId ∧ t.interaction = i.index ∧ t.centers = l.centers ∧
      t.codes = l.codes := by
  unfold groupEnergies
  cases hi : r.groupInteractions[m.interaction]? with
  | none => simp
  | some i =>
    simp only [mapError_ok_iff, bind_ok_iff, pure_ok_iff, Option.some.injEq]
    constructor
    · rintro ⟨l, layout, table, made, rfl⟩
      exact ⟨i, l, rfl, layout, made, rfl, rfl, rfl, rfl⟩
    · rintro ⟨i, l, rfl, layout, made, model, interaction, centers, codes⟩
      refine ⟨l, layout, t.table, made, ?_⟩
      rw [← model, ← interaction, ← centers, ← codes]

end CrystalModel
