import CrystalModel.Output.Lattice
import CrystalModel.Proofs.Reference.Validation
import CrystalModel.Proofs.Simulation.Index

/-! # Counts of a supercell

A supercell has a record exactly when its positions, its cells and its mobile and selectable
positions are 32-bit numbers. No product wraps on the way, and none is refused that fits. -/
namespace CrystalModel

def IsInt32 (n : Int) : Prop := ∃ i : Int32, i.toInt = n

theorem isInt32_iff {n : Int} :
    IsInt32 n ↔ Int32.minValue.toInt ≤ n ∧ n ≤ Int32.maxValue.toInt := by
  constructor
  · rintro ⟨i, rfl⟩
    exact ⟨Int32.minValue_le_toInt i, Int32.toInt_le i⟩
  · rintro ⟨low, high⟩
    rw [Int32.toInt_maxValue] at high
    exact ⟨Int32.ofInt n, Int32.toInt_ofInt_of_le low (Int.lt_of_le_sub_one high)⟩

theorem IsInt32.toInt_ofNat {m n : Nat} (h : IsInt32 n) (few : m ≤ n) :
    (Int32.ofNat m).toInt = m := by
  have high := (isInt32_iff.mp h).2
  rw [Int32.toInt_maxValue] at high
  exact Int32.toInt_ofNat_of_lt (by omega)

theorem IsInt32.of_le {m n : Int} (h : IsInt32 n) (low : 0 ≤ m) (high : m ≤ n) : IsInt32 m := by
  rw [isInt32_iff] at h ⊢
  exact ⟨Int.le_trans (by decide) low, Int.le_trans high h.2⟩

theorem fitted?_eq_some {n : Int} {i : Int32} : fitted? n = some i ↔ i.toInt = n := by
  unfold fitted?
  split
  · next within =>
    obtain ⟨j, rfl⟩ := isInt32_iff.mpr within
    rw [Int32.ofInt_toInt, Option.some.injEq, Int32.toInt_inj, eq_comm]
  · next outside =>
    constructor
    · intro h
      cases h
    · intro h
      exact absurd (isInt32_iff.mp ⟨i, h⟩) outside

theorem product?_eq_some {a b n : Int32} : product? a b = some n ↔ n.toInt = a.toInt * b.toInt :=
  fitted?_eq_some

theorem product?_bind_eq_some {a b c n : Int32} (ha : 0 ≤ a.toInt) (hb : 0 ≤ b.toInt)
    (hc : 1 ≤ c.toInt) : (product? a b).bind (product? · c) = some n ↔
      n.toInt = a.toInt * b.toInt * c.toInt := by
  simp only [Option.bind_eq_some_iff, product?_eq_some]
  constructor
  · rintro ⟨ab, hab, hn⟩
    rw [hn, hab]
  · intro hn
    have low : 0 ≤ a.toInt * b.toInt := Int.mul_nonneg ha hb
    have high : a.toInt * b.toInt ≤ n.toInt := by
      have := Int.mul_le_mul_of_nonneg_left hc low
      rwa [Int.mul_one, ← hn] at this
    obtain ⟨ab, hab⟩ := IsInt32.of_le ⟨n, rfl⟩ low high
    exact ⟨ab, hab, by rw [hn, hab]⟩

namespace JumpIndex

/-- On every position with a selectable particle some particle moves. -/
def Moves (index : JumpIndex) : Prop :=
  ∀ (p : Nat) mask row, index.selectionMasks[p]? = some mask → index.mobilities[p]? = some row →
    mask ≠ 0 → ∃ mobility ∈ row, mobility ≠ Mobility.immobile

variable {particles : List Particle} {positionTotal rows columns width p k : Nat}
  {ids : List Int32} {index : JumpIndex} {entries : List Entry}

theorem moves_blank : Moves (blank columns rows width) := by
  intro p mask row hmask _ lit
  exact absurd (List.eq_of_mem_replicate (List.mem_of_getElem? hmask)) lit

theorem Moves.fill (moves : index.Moves) (sized : Sized rows columns width index)
    (fits : Fits rows columns width p k ids) : Moves (fill particles index (p, k, ids)) := by
  intro q mask row hmask hrow lit
  rw [fill_selectionMasks] at hmask
  rw [fill_mobilities] at hrow
  by_cases empty : ids = []
  · have still : mobilityOf (isVacancy particles k) ids ≠ .selectable := by simp [mobilityOf, empty]
    rw [if_neg still] at hmask
    rw [if_pos empty] at hrow
    exact moves q mask row hmask hrow lit
  · rw [if_neg empty, List.getElem?_modify] at hrow
    obtain ⟨old, hold, rfl⟩ := Option.map_eq_some_iff.mp hrow
    by_cases here : p = q
    · have inside : k < old.length := by
        rw [sized.mobility old (List.mem_of_getElem? hold)]
        exact fits.column
      refine ⟨mobilityOf (isVacancy particles k) ids, ?_, mobilityOf_immobile.not.mpr empty⟩
      rw [if_pos here]
      exact List.mem_set inside _
    · rw [if_neg here]
      refine moves q mask old ?_ hold lit
      split at hmask
      · simpa [List.getElem?_modify, here] using hmask
      · exact hmask

theorem moves_ofEntries (particles : List Particle) (positionTotal : Nat) (entries : List Entry) :
    Moves (ofEntries particles positionTotal entries) := by
  have step {rows columns width : Nat} : ∀ (cs : List (Nat × Nat × List Int32))
      (index : JumpIndex), (∀ p k ids, (p, k, ids) ∈ cs → Fits rows columns width p k ids) →
      Sized rows columns width index → index.Moves →
      Moves (cs.foldl (JumpIndex.fill particles) index) := by
    intro cs
    induction cs with
    | nil => exact fun _ _ _ moves => moves
    | cons c rest ih =>
      obtain ⟨p, k, ids⟩ := c
      intro index fits sized moves
      have fit := fits p k ids List.mem_cons_self
      exact ih _ (fun p k ids h => fits p k ids (List.mem_cons_of_mem _ h)) (sized.fill fit)
        (moves.fill sized fit)
  exact step _ _ (fun _ _ _ => fits_cells) (sized_blank _ _ _) moves_blank

theorem selectablePositions_le : (ofEntries particles positionTotal entries).selectablePositions ≤
    (ofEntries particles positionTotal entries).mobilePositions := by
  have sized := sized_ofEntries particles positionTotal entries
  have moves := moves_ofEntries particles positionTotal entries
  generalize ofEntries particles positionTotal entries = index at sized moves ⊢
  have lengths : index.selectionMasks.length = index.mobilities.length := by
    rw [sized.selectionMasks, sized.mobilities]
  calc index.selectionMasks.countP (· != 0)
      = (index.selectionMasks.zip index.mobilities).countP ((· != 0) ∘ Prod.fst) := by
        rw [← List.countP_map, List.map_fst_zip (Nat.le_of_eq lengths)]
    _ ≤ (index.selectionMasks.zip index.mobilities).countP
          ((·.any (· != .immobile)) ∘ Prod.snd) := by
        refine List.countP_mono_left fun pair both lit => ?_
        obtain ⟨p, hp⟩ := List.mem_iff_getElem?.mp both
        obtain ⟨hmask, hrow⟩ := List.getElem?_zip_eq_some.mp hp
        obtain ⟨mobility, among, moving⟩ := moves p _ _ hmask hrow (bne_iff_ne.mp lit)
        exact List.any_eq_true.mpr ⟨mobility, among, bne_iff_ne.mpr moving⟩
    _ = index.mobilities.countP (·.any (· != .immobile)) := by
        rw [← List.countP_map, List.map_snd_zip (Nat.le_of_eq lengths.symm)]

theorem mobilePositions_le :
    (ofEntries particles positionTotal entries).mobilePositions ≤ positionTotal := by
  refine Nat.le_trans List.countP_le_length (Nat.le_of_eq ?_)
  exact (sized_ofEntries particles positionTotal entries).mobilities

end JumpIndex

namespace SimulationModel

variable {s : SimulationModel} {structured : CrystalStructure}

theorem counted_ok_iff {what : String} {count : Option Int32} {n : Int32} :
    s.counted what count = .ok n ↔ count = some n := by
  cases count <;> simp [counted]

def recordWith (s : SimulationModel) (positions mobiles selectables : Int32) :
    Binary.LatticeInfo where
  sizeVector := #v[s.latticeSize.x, s.latticeSize.y, s.latticeSize.z, positions]
  mobilesCount := mobiles
  selectablesCount := selectables
  lattice := .of [s.latticeSize.x, s.latticeSize.y, s.latticeSize.z, positions]
  background := .of [positions, Int32.ofNat s.index.particleCount]
  padding := Vector.replicate 8 0

/-- The steps of a record in their order. -/
theorem latticeRecord_ok_iff {record : Binary.LatticeInfo} :
    s.latticeRecord structured = .ok record ↔ ∃ positions cells mobiles selectables : Int32,
      positions.toInt = structured.positionTotal ∧
      (product? s.latticeSize.x s.latticeSize.y).bind (product? · s.latticeSize.z) = some cells ∧
      mobiles.toInt = cells.toInt * (Int32.ofNat s.index.mobilePositions).toInt ∧
      selectables.toInt = cells.toInt * (Int32.ofNat s.index.selectablePositions).toInt ∧
      record = s.recordWith positions mobiles selectables := by
  unfold latticeRecord
  simp only [bind_ok_iff, pure_ok_iff, counted_ok_iff, fitted?_eq_some, product?_eq_some]
  constructor
  · rintro ⟨positions, few, cells, hcells, mobiles, hmobiles, selectables, hselectables, rfl⟩
    exact ⟨positions, cells, mobiles, selectables, few, hcells, hmobiles, hselectables, rfl⟩
  · rintro ⟨positions, cells, mobiles, selectables, few, hcells, hmobiles, hselectables, rfl⟩
    exact ⟨positions, few, cells, hcells, mobiles, hmobiles, selectables, hselectables, rfl⟩

theorem latticeRecord_ok {info : Binary.LatticeInfo} (h : s.latticeRecord structured = .ok info) :
    structured.positionTotal < 2 ^ 31 := by
  obtain ⟨positions, _, _, _, few, _⟩ := latticeRecord_ok_iff.mp h
  have := Int32.toInt_lt positions
  omega

/-- How many unit cells the supercell has. -/
def cellTotal (s : SimulationModel) : Int :=
  s.latticeSize.x.toInt * s.latticeSize.y.toInt * s.latticeSize.z.toInt

/-- A record with the sizes of the supercell and its exact counts. -/
structure ExactCounts (s : SimulationModel) (structured : CrystalStructure)
    (record : Binary.LatticeInfo) : Prop where
  sizes : record.sizeVector.toList.map Int32.toInt = [s.latticeSize.x.toInt,
    s.latticeSize.y.toInt, s.latticeSize.z.toInt, structured.positionTotal]
  lattice : record.lattice = .of record.sizeVector.toList
  mobiles : record.mobilesCount.toInt = s.cellTotal * s.index.mobilePositions
  selectables : record.selectablesCount.toInt = s.cellTotal * s.index.selectablePositions
  selected : record.selectablesCount ≤ record.mobilesCount
  inside : record.mobilesCount.toInt ≤ s.cellTotal * structured.positionTotal

variable {particles : List Particle} {entries : List JumpIndex.Entry}

theorem sizes_pos (positive : ∀ n ∈ s.latticeSize.toList, 1 ≤ n) : 1 ≤ s.latticeSize.x.toInt ∧
    1 ≤ s.latticeSize.y.toInt ∧ 1 ≤ s.latticeSize.z.toInt := by
  have size : ∀ n ∈ s.latticeSize.toList, 1 ≤ n.toInt := fun n hn =>
    Int32.le_iff_toInt_le.mp (positive n hn)
  simpa [Vec3.toList] using size

theorem cellTotal_nonneg (positive : ∀ n ∈ s.latticeSize.toList, 1 ≤ n) : 0 ≤ s.cellTotal := by
  obtain ⟨hx, hy, hz⟩ := sizes_pos positive
  exact Int.mul_nonneg (Int.mul_nonneg (by omega) (by omega)) (by omega)

theorem latticeRecord_counts {record : Binary.LatticeInfo}
    (positive : ∀ n ∈ s.latticeSize.toList, 1 ≤ n)
    (index : s.index = .ofEntries particles structured.positionTotal entries) :
    s.latticeRecord structured = .ok record ↔ ∃ positions cells mobiles selectables : Int32,
      positions.toInt = structured.positionTotal ∧ cells.toInt = s.cellTotal ∧
      mobiles.toInt = s.cellTotal * s.index.mobilePositions ∧
      selectables.toInt = s.cellTotal * s.index.selectablePositions ∧
      record = s.recordWith positions mobiles selectables := by
  obtain ⟨hx, hy, hz⟩ := sizes_pos positive
  have selected : s.index.selectablePositions ≤ structured.positionTotal :=
    index ▸ Nat.le_trans JumpIndex.selectablePositions_le JumpIndex.mobilePositions_le
  have moving : s.index.mobilePositions ≤ structured.positionTotal :=
    index ▸ JumpIndex.mobilePositions_le
  rw [latticeRecord_ok_iff]
  refine exists_congr fun positions => exists_congr fun cells => exists_congr fun mobiles =>
    exists_congr fun selectables => and_congr_right fun few => ?_
  rw [product?_bind_eq_some (by omega) (by omega) hz, IsInt32.toInt_ofNat ⟨_, few⟩ moving,
    IsInt32.toInt_ofNat ⟨_, few⟩ selected]
  refine and_congr_right fun hcells => ?_
  rw [hcells]
  rfl

/-- A supercell has a record exactly when its counts are 32-bit numbers, and the record holds the
exact counts: of selectable positions at most as many as of mobile ones, of those at most all. -/
theorem latticeRecord_exact (positive : ∀ n ∈ s.latticeSize.toList, 1 ≤ n)
    (index : s.index = .ofEntries particles structured.positionTotal entries) :
    ((∃ record, s.latticeRecord structured = .ok record) ↔
      IsInt32 structured.positionTotal ∧ IsInt32 s.cellTotal ∧
      IsInt32 (s.cellTotal * s.index.mobilePositions) ∧
      IsInt32 (s.cellTotal * s.index.selectablePositions)) ∧
    ∀ record, s.latticeRecord structured = .ok record → s.ExactCounts structured record := by
  simp only [latticeRecord_counts positive index]
  constructor
  · constructor
    · rintro ⟨_, positions, cells, mobiles, selectables, few, hcells, hmobiles, hselectables, _⟩
      exact ⟨⟨positions, few⟩, ⟨cells, hcells⟩, ⟨mobiles, hmobiles⟩, ⟨selectables, hselectables⟩⟩
    · rintro ⟨⟨positions, few⟩, ⟨cells, hcells⟩, ⟨mobiles, hmobiles⟩, selectables, hselectables⟩
      exact ⟨_, positions, cells, mobiles, selectables, few, hcells, hmobiles, hselectables, rfl⟩
  · rintro record ⟨positions, _, mobiles, selectables, few, _, hmobiles, hselectables, rfl⟩
    have most : s.index.mobilePositions ≤ structured.positionTotal :=
      index ▸ JumpIndex.mobilePositions_le
    have fewer : s.index.selectablePositions ≤ s.index.mobilePositions :=
      index ▸ JumpIndex.selectablePositions_le
    have cells := cellTotal_nonneg positive
    refine ⟨?_, rfl, hmobiles, hselectables, ?_, ?_⟩
    · rw [← few]
      rfl
    · rw [Int32.le_iff_toInt_le]
      change selectables.toInt ≤ mobiles.toInt
      rw [hmobiles, hselectables]
      exact Int.mul_le_mul_of_nonneg_left (Int.ofNat_le.mpr fewer) cells
    · change mobiles.toInt ≤ _
      rw [hmobiles]
      exact Int.mul_le_mul_of_nonneg_left (Int.ofNat_le.mpr most) cells

def slabStructure : CrystalStructure where
  symmetry := ⟨⟨1, "P1", [.identity]⟩, .ofWidth 1.0e-6⟩
  encoder := ⟨[⟨0.0, 0.0, 0.0⟩, ⟨0.0, 0.0, 0.25⟩, ⟨0.0, 0.0, 0.5⟩], .cubic 3.0, .ofWidth 1.0e-6⟩
  positionSites := [0, 1, 2]
  environments := []
  pairModels := []
  groupModels := []
  cellPositions := []
  pairClasses := []
  groupClasses := []

/-- A supercell in which a species leaves the first position, a vacancy the second one, and nothing
the third one. -/
def slab (size : Vec3 Int32) : SimulationModel where
  simulation := 0
  name := "slab"
  kind := .kinetic
  seed := 1
  temperature := 1000.0
  latticeSize := size
  targetSteps := 100
  field := Point.zero
  fieldMagnitude := 0.0
  transitions := [0, 1]
  collections := [⟨0, 0, 2, []⟩, ⟨1, 1, 4, []⟩]
  directions := [⟨0, 0, 0, 0, 0.0, []⟩, ⟨1, 1, 1, 1, 0.0, []⟩]
  index := .ofEntries ReferenceData.chain.particles slabStructure.positionTotal
    [⟨0, 0, 2⟩, ⟨1, 1, 4⟩]
  maxFrequency := 1.0

theorem slab_counts : (∃ record, (slab ⟨2, 3, 5⟩).latticeRecord slabStructure = .ok record ∧
      record.mobilesCount = 60 ∧ record.selectablesCount = 30 ∧
      (slab ⟨2, 3, 5⟩).ExactCounts slabStructure record) ∧
    ¬∃ record, (slab ⟨2147483647, 2, 1⟩).latticeRecord slabStructure = .ok record := by
  have index (size : Vec3 Int32) : (slab size).index = .ofEntries ReferenceData.chain.particles
      slabStructure.positionTotal [⟨0, 0, 2⟩, ⟨1, 1, 4⟩] := rfl
  have small := latticeRecord_exact (by simp [slab, Vec3.toList]) (index ⟨2, 3, 5⟩)
  have large := latticeRecord_exact (by simp [slab, Vec3.toList]) (index ⟨2147483647, 2, 1⟩)
  constructor
  · exact ⟨_, rfl, rfl, rfl, small.2 _ rfl⟩
  · intro h
    have cells := (large.1.mp h).2.1
    exact absurd (isInt32_iff.mp cells) (by decide)

end SimulationModel

end CrystalModel
