import CrystalModel.Proofs.Geometry.Encoder
import CrystalModel.Proofs.Output.Build
import CrystalModel.Proofs.Output.Lattice
import CrystalModel.Proofs.Reference.Validation
import CrystalModel.Proofs.Simulation.Index

/-! # Blob sets without loose ends

Numbers inside the blobs of a simulation stand for positions, tables, directions and pair
definitions. In every set that is put out, each of them leads to something in the same set. -/
namespace CrystalModel

namespace Binary

def Below (n : Int32) (bound : Nat) : Prop := 0 ≤ n.toInt ∧ n.toInt < bound

theorem below_ofNat {k bound : Nat} (hk : k < bound) (fits : bound ≤ 2 ^ 31) :
    Below (Int32.ofNat k) bound := by
  rw [Below, Int32.toInt_ofNat_of_lt (Nat.lt_of_lt_of_le hk fits)]
  omega

namespace BlobSet

def Holds {α : Type} [Record α] (set : BlobSet) (simulation : Nat) (kind : BlobType)
    (id : Option Nat) (records : List α) : Prop :=
  set.get? (keyText simulation kind id) = some (.ofRecords kind records)

def HoldsTable {α : Type} (set : BlobSet) (simulation : Nat) (codec : Codec α) (kind : BlobType)
    (id : Option Nat) (dimensions : List Nat) (values : List α) : Prop :=
  ∃ b, set.get? (keyText simulation kind id) = some b ∧
    Blob.ofTable codec kind dimensions values = .ok b

/-- The number is the id of a blob of the kind. -/
def Names (set : BlobSet) (simulation : Nat) (kind : BlobType) (n : Int32) : Prop :=
  ∃ (id : Nat) (b : Blob), n.toInt = id ∧
    set.get? (keyText simulation kind (some id)) = some b ∧ b.kind = kind

end BlobSet

/-- The target lies on a position, and its energies are there. -/
structure PairResolves (set : BlobSet) (simulation positions : Nat) (x : PairDefinition) :
    Prop where
  position : Below x.relative[3] positions
  table : set.Names simulation .pairTable x.tableId

/-- The used places come first and are pair definitions of the same position. -/
structure ClusterResolves (set : BlobSet) (simulation pairs : Nat) (x : ClusterDefinition) :
    Prop where
  partners : ∃ used, 1 ≤ used ∧ used ≤ 8 ∧ ∀ (i : Nat) (h : i < 8),
    (i < used → Below x.pairIds[i] pairs) ∧ (used ≤ i → x.pairIds[i] = -1)
  table : set.Names simulation .clusterTable x.tableId
  codes : set.Names simulation .occupationCodes x.tableId
  buffer : set.Names simulation .particleTableBuffer x.tableId

/-- The link leads from a position of the path to one of the pair definitions there. -/
structure LinkResolves (set : BlobSet) (simulation : Nat) (x : JumpDirection) (l : JumpLink) :
    Prop where
  path : 0 ≤ l.pathId.toInt ∧ l.pathId.toInt < x.jumpLength.toInt
  pairs : ∀ (i : Nat) (h : i < 8), l.pathId.toInt = i → ∃ (p : Nat) (pairs : List PairDefinition),
    x.sequence[i][3].toInt = p ∧ set.Holds simulation .pairDefinitions (some p) pairs ∧
      Below l.linkId pairs.length

/-- The path runs over positions, and everything that belongs to the direction is there. -/
structure DirectionResolves (set : BlobSet) (simulation positions d : Nat) (x : JumpDirection) :
    Prop where
  number : x.objectId.toInt = d
  start : x.positionId = x.sequence[0][3]
  position : Below x.positionId positions
  length : 2 ≤ x.jumpLength.toInt ∧ x.jumpLength.toInt ≤ 8
  path : ∀ (i : Nat) (h : i < 8), i < x.jumpLength.toInt → Below x.sequence[i][3] positions
  rules : set.Names simulation .jumpRules x.collectionId
  moves : ∃ moves : List MoveVector, set.Holds simulation .moveVectors (some d) moves ∧
    moves.length = x.jumpLength.toInt ∧
    ∀ (i : Nat) (m : MoveVector), moves[i]? = some m → m.trackerId.toInt = i
  links : ∃ links : List JumpLink, set.Holds simulation .jumpLinks (some d) links ∧
    ∀ l ∈ links, LinkResolves set simulation x l

/-- Every number inside the set leads to something in it. -/
structure Resolved (set : BlobSet) (simulation positionTotal clusterTotal directionTotal : Nat) :
    Prop where
  positions : ∀ p < positionTotal,
    ∃ (pairs : List PairDefinition) (clusters : List ClusterDefinition),
      set.Holds simulation .pairDefinitions (some p) pairs ∧
      set.Holds simulation .clusterDefinitions (some p) clusters ∧
      (∀ x ∈ pairs, PairResolves set simulation positionTotal x) ∧
      ∀ x ∈ clusters, ClusterResolves set simulation pairs.length x
  buffers : ∀ id < clusterTotal, ∃ (buffer : ParticleBuffer) (rows columns : Nat)
      (values : List Binary64), set.Holds simulation .particleTableBuffer (some id) [buffer] ∧
    set.HoldsTable simulation Codec.binary64 .clusterTable (some id) [rows, columns] values ∧
    ∀ entry ∈ buffer.entries, entry = ParticleBuffer.unusedEntry ∨ entry.toNat < rows
  directions : ∃ records : List JumpDirection, set.Holds simulation .jumpDirections none records ∧
    records.length = directionTotal ∧
    ∀ (d : Nat) (x : JumpDirection), records[d]? = some x →
      DirectionResolves set simulation positionTotal d x
  assigned : ∃ dimensions values,
    set.HoldsTable simulation Codec.int32 .jumpAssign none dimensions values ∧
    ∀ n ∈ values, n = -1 ∨ Below n directionTotal
  moves : ∃ moves : List MoveVector, set.Holds simulation .globalMoves none moves ∧
    moves.length = directionTotal ∧
    ∀ (d : Nat) (m : MoveVector), moves[d]? = some m → m.trackerId.toInt = d

end Binary

open Binary KeyedBlob

/-- All counts of an output are 32-bit numbers. -/
structure Fits (structured : CrystalStructure) (s : SimulationModel) : Prop where
  pairTables : structured.pairClasses.length < 2 ^ 31
  clusterTables : structured.groupClasses.length < 2 ^ 31
  targets : ∀ c ∈ structured.cellPositions, c.targets.length < 2 ^ 31
  directions : s.directions.length < 2 ^ 31
  collections : s.collections.length < 2 ^ 31

section Parts

variable {set : BlobSet} {simulation : Nat}

theorem KeyedBlob.Found.names {b : KeyedBlob} {kind : BlobType} {id : Nat}
    (h : Found set simulation b)
    (key : b.key = (kind, some id)) (fits : id < 2 ^ 31) :
    set.Names simulation kind (Int32.ofNat id) := by
  obtain ⟨_, _, blob⟩ := b
  cases key
  exact ⟨id, blob, Int32.toInt_ofNat_of_lt fits, h.1, h.2⟩

theorem holds_of_found {α : Type} [Record α] {kind : BlobType} {id : Option Nat}
    {records : List α} (h : Found set simulation (.ofRecords kind id records)) :
    set.Holds simulation kind id records := h.1

theorem KeyedBlob.Found.holdsTable {α : Type} {codec : Codec α} {b : KeyedBlob} {kind : BlobType}
    {id : Option Nat} {dimensions : List Nat} {values : List α} (h : Found set simulation b)
    (made : KeyedBlob.ofTable codec kind id dimensions values = .ok b) :
    set.HoldsTable simulation codec kind id dimensions values := by
  obtain ⟨key, _, table⟩ := ofTable_ok made
  obtain ⟨_, _, blob⟩ := b
  cases key
  exact ⟨blob, h.1, table⟩

theorem coded_partners {pairs : Nat} {coding : Vector Int32 8} (fits : pairs < 2 ^ 31)
    (h : StructureDraft.Coded pairs coding) : ∃ used, 1 ≤ used ∧ used ≤ 8 ∧
      ∀ (i : Nat) (h : i < 8),
        (i < used → Below coding[i] pairs) ∧ (used ≤ i → coding[i] = -1) := by
  obtain ⟨places, rfl, nonempty, few, within⟩ := h
  refine ⟨places.length, List.length_pos_iff.mpr nonempty, few, fun i hi => ?_⟩
  refine ⟨fun used => ?_, fun rest => ?_⟩
  · have := within places[i] (List.getElem_mem used)
    simpa [StructureDraft.paddedCoding, used] using below_ofNat this (by omega)
  · simp [StructureDraft.paddedCoding, List.getElem?_eq_none rest]

theorem GroupTable.rowBuffer_entries (t : GroupTable) : ∀ entry ∈ t.rowBuffer.entries,
    entry = ParticleBuffer.unusedEntry ∨ entry.toNat < t.centers.length := by
  refine List.foldlRecOn (motive := fun b : ParticleBuffer => ∀ entry ∈ b.entries,
    entry = ParticleBuffer.unusedEntry ∨ entry.toNat < t.centers.length) _ _ ?_ ?_
  · intro entry h
    exact Or.inl (Vector.eq_of_mem_replicate h)
  · rintro b ih ⟨particle, row⟩ hrow entry h
    have inside := (List.getElem?_eq_some_iff.mp (List.mem_zipIdx_iff_getElem?.mp hrow)).1
    have h : entry ∈ b.entries.setIfInBounds particle (UInt8.ofNat row) := h
    rw [← Vector.mem_toList_iff, Vector.toList_setIfInBounds] at h
    rcases List.mem_or_eq_of_mem_set h with old | rfl
    · exact ih entry (Vector.mem_toList_iff.mp old)
    · have := Nat.mod_le row 256
      exact Or.inr (by simp only [UInt8.toNat_ofNat']; omega)

theorem pathSequence_getElem {path : List CrystalVector} {here : CrystalVector} {i : Nat}
    (h : path[i]? = some here) (hi : i < 8) : (pathSequence path)[i][3] = here.p := by
  simp [pathSequence, h, CrystalVector.toVector]

variable {r : ReferenceData} {structured : CrystalStructure} {p : Nat} {c : CellPosition}

theorem pairRecords_resolve (sound : CrystalStructure.Sound r structured)
    (few : structured.positionTotal < 2 ^ 31)
    (tables : ∀ k < structured.pairClasses.length, set.Names simulation .pairTable (Int32.ofNat k))
    (hc : structured.cellPositions[p]? = some c) : ∀ x ∈ CrystalStructure.pairRecords c,
      PairResolves set simulation structured.positionTotal x := by
  intro x hx
  obtain ⟨target, htarget, rfl⟩ := List.mem_map.mp hx
  obtain ⟨_, env, placed⟩ := sound.placed hc
  obtain ⟨id, hid, _, m, hm, same, code⟩ := aligned_mem_right placed.targets htarget
  obtain ⟨m', hm', inside, _⟩ := sound.known _ env id placed.found hid
  rw [hm, Option.some.injEq] at hm'
  subst hm'
  obtain ⟨q, hq, _, at_place⟩ := Encoder.encode_some code
  refine ⟨?_, tables target.modelId (same ▸ inside)⟩
  have relative : target.relative.toVector[3] = Int32.ofNat q := at_place
  rw [sound.positions.aligned] at hq
  exact relative ▸ below_ofNat hq (by omega)

theorem clusterRecords_resolve (sound : CrystalStructure.Sound r structured)
    (few : c.targets.length < 2 ^ 31)
    (tables : ∀ k < structured.groupClasses.length,
      set.Names simulation .clusterTable (Int32.ofNat k) ∧
      set.Names simulation .occupationCodes (Int32.ofNat k) ∧
      set.Names simulation .particleTableBuffer (Int32.ofNat k))
    (hc : structured.cellPositions[p]? = some c) : ∀ x ∈ structured.clusterRecords c,
      ClusterResolves set simulation (CrystalStructure.pairRecords c).length x := by
  intro x hx
  obtain ⟨_, env, placed⟩ := sound.placed hc
  rw [CrystalStructure.clusterRecords, placed.found] at hx
  obtain ⟨id, hid, hx⟩ := List.mem_filterMap.mp hx
  obtain ⟨m, hm, rfl⟩ := Option.map_eq_some_iff.mp hx
  obtain ⟨m', hm', inside, coded⟩ := sound.groups _ env id placed.found hid
  rw [hm, Option.some.injEq] at hm'
  subst hm'
  rw [placed.targets.length_eq] at coded
  obtain ⟨table, codes, buffer⟩ := tables m.modelId inside
  rw [CrystalStructure.pairRecords, List.length_map]
  exact ⟨coded_partners few coded, table, codes, buffer⟩

end Parts

section Directions

open TransitionNetwork SimulationModel

variable {structured : CrystalStructure} {t : TransitionNetwork} {limit : Nat}
  {s : SimulationModel} {set : BlobSet}

structure HoldsModels (set : BlobSet) (structured : CrystalStructure) (t : TransitionNetwork)
    (s : SimulationModel) : Prop where
  pairs : ∀ (p : Nat) (c : CellPosition), structured.cellPositions[p]? = some c →
    set.Holds s.simulation .pairDefinitions (some p) (CrystalStructure.pairRecords c)
  clusters : ∀ (p : Nat) (c : CellPosition), structured.cellPositions[p]? = some c →
    set.Holds s.simulation .clusterDefinitions (some p) (structured.clusterRecords c)
  links : ∀ x ∈ s.mappedDirections t,
    set.Holds s.simulation .jumpLinks (some x.1.id) x.1.linkRecords
  moves : ∀ x ∈ s.mappedDirections t, set.Holds s.simulation .moveVectors (some x.1.id)
    (x.2.movement.zipIdx.map fun (v, tracker) => moveRecord v tracker)
  rules : ∀ c ∈ s.collections, set.Names s.simulation .jumpRules (Int32.ofNat c.id)

theorem linkRecords_resolve (holds : HoldsModels set structured t s)
    (targets : ∀ c ∈ structured.cellPositions, c.targets.length < 2 ^ 31)
    {direction : JumpDirection} {y : Mapping} (short : y.path.length ≤ 8)
    (places : ∀ (i : Nat) (here : CrystalVector), y.path[i]? = some here →
      ∃ place < 2 ^ 31, here.p = Int32.ofNat place)
    (links : direction.links = SimulationModel.pathLinks structured y.path) :
    ∀ l ∈ direction.linkRecords, LinkResolves set s.simulation (direction.record y) l := by
  intro l hl
  obtain ⟨link, hlink, rfl⟩ := List.mem_map.mp hl
  obtain ⟨here, c, hhere, hc, inside⟩ := mem_pathLinks (links ▸ hlink)
  have onPath := (List.getElem?_eq_some_iff.mp hhere).1
  have pathId : (Int32.ofNat link.pathId).toInt = link.pathId :=
    Int32.toInt_ofNat_of_lt (by omega)
  have length : (Int32.ofNat y.path.length).toInt = y.path.length :=
    Int32.toInt_ofNat_of_lt (by omega)
  refine ⟨?_, fun i hi same => ?_⟩
  · simp only [JumpDirection.record, pathId, length]
    omega
  · have same : i = link.pathId := by
      simp only [pathId] at same
      omega
    subst same
    obtain ⟨place, small, at_place⟩ := places _ here hhere
    have number : here.p.toInt = place := at_place ▸ Int32.toInt_ofNat_of_lt small
    rw [number, Int.toNat_natCast] at hc
    have fits := targets c (List.mem_of_getElem? hc)
    refine ⟨place, _, ?_, holds.pairs place c hc, below_ofNat ?_ ?_⟩
    · simp only [JumpDirection.record]
      rw [pathSequence_getElem hhere hi, number]
    · rwa [CrystalStructure.pairRecords, List.length_map]
    · rw [CrystalStructure.pairRecords, List.length_map]
      omega

theorem directionRecord_resolves (holds : HoldsModels set structured t s) (fits : Fits structured s)
    (few : structured.encoder.positions.length < 2 ^ 31) (short : limit ≤ 8) {d n : Nat}
    {direction : JumpDirection} {m : LinkedTransition} {y : Mapping}
    (hd : s.directions[d]? = some direction) (mapped : (direction, y) ∈ s.mappedDirections t)
    (directed : Directed structured t s d direction n m y)
    (routed : Routed structured.encoder limit y) :
    DirectionResolves set s.simulation structured.encoder.positions.length d
      (direction.record y) := by
  have low := routed.low
  have high := routed.high
  have inside := (List.getElem?_eq_some_iff.mp hd).1
  have length : (direction.record y).jumpLength.toInt = y.path.length :=
    Int32.toInt_ofNat_of_lt (by omega)
  have sequence : ∀ (i : Nat) (hi : i < 8) (on : i < y.path.length),
      (direction.record y).sequence[i][3] = y.path[i].p := by
    intro i hi on
    exact pathSequence_getElem (List.getElem?_eq_getElem on) hi
  have path : ∀ (i : Nat) (hi : i < 8), i < (direction.record y).jumpLength.toInt →
      Below (direction.record y).sequence[i][3] structured.encoder.positions.length := by
    intro i hi on
    rw [length] at on
    obtain ⟨place, small, same⟩ := routed.place (List.getElem?_eq_getElem (by omega : i < _))
    rw [sequence i hi (by omega), same]
    exact below_ofNat small (by omega)
  have start : (direction.record y).positionId = (direction.record y).sequence[0][3] := by
    obtain ⟨place, small, same⟩ := routed.place (List.getElem?_eq_getElem (by omega : 0 < _))
    have first : y.start = y.path[0].p.toInt.toNat := by
      rw [Mapping.start, startPosition, List.head?_eq_getElem?, List.getElem?_eq_getElem (by omega)]
      rfl
    rw [sequence 0 (by omega) (by omega)]
    simp only [JumpDirection.record, directed.position, first, same]
    rw [Int32.toInt_ofNat_of_lt (by omega), Int.toNat_natCast]
  refine ⟨?_, start, start ▸ path 0 (by omega) (by omega), by omega, path, ?_, ?_, ?_⟩
  · simp only [JumpDirection.record, directed.number]
    exact Int32.toInt_ofNat_of_lt (Nat.lt_trans inside fits.directions)
  · exact holds.rules _ (List.mem_of_getElem? directed.collection)
  · refine ⟨_, directed.number ▸ holds.moves _ mapped, ?_, ?_⟩
    · rw [length, List.length_map, List.length_zipIdx, routed.movement]
    · intro i x hx
      rw [List.getElem?_map, List.getElem?_zipIdx, Option.map_map, Nat.zero_add] at hx
      obtain ⟨v, hv, rfl⟩ := Option.map_eq_some_iff.mp hx
      have on := (List.getElem?_eq_some_iff.mp hv).1
      have movement := routed.movement
      simp only at on
      exact Int32.toInt_ofNat_of_lt (by omega)
  · refine ⟨_, directed.number ▸ holds.links _ mapped, ?_⟩
    refine linkRecords_resolve holds fits.targets (by omega) (fun i here h => ?_) directed.links
    obtain ⟨place, small, same⟩ := routed.place h
    exact ⟨place, Nat.lt_trans small few, same⟩

end Directions

section Energies

variable {e : Energetics} {energies : List KeyedBlob} {set : BlobSet}
  {simulation pairs groups : Nat}

theorem pairTables_named (numbered : e.pairTables.map (·.modelId) = List.range pairs)
    (few : pairs < 2 ^ 31) (h : e.blobs = .ok energies)
    (found : ∀ b ∈ energies, Found set simulation b) :
    ∀ k < pairs, set.Names simulation .pairTable (Int32.ofNat k) := by
  intro k hk
  obtain ⟨pairBlobs, groupBlobs, hpairs, _, rfl⟩ := Energetics.blobs_ok h
  obtain ⟨t, ht, rfl⟩ := List.mem_map.mp (numbered ▸ List.mem_range.mpr hk)
  obtain ⟨b, hb, made⟩ := aligned_mem_left hpairs ht
  exact (found b (List.mem_append_left _ hb)).names (ofTable_ok made).1
    (by omega)

theorem groupTable_found (numbered : e.groupTables.map (·.modelId) = List.range groups)
    (h : e.blobs = .ok energies) (found : ∀ b ∈ energies, Found set simulation b) :
    ∀ k < groups, ∃ t ∈ e.groupTables, t.modelId = k ∧ ∃ blobs, t.blobs = .ok blobs ∧
      ∀ b ∈ blobs, Found set simulation b := by
  intro k hk
  obtain ⟨pairBlobs, groupBlobs, _, hgroups, rfl⟩ := Energetics.blobs_ok h
  obtain ⟨t, ht, same⟩ := List.mem_map.mp (numbered ▸ List.mem_range.mpr hk)
  obtain ⟨blobs, hblobs, made⟩ := aligned_mem_left hgroups ht
  refine ⟨t, ht, same, blobs, made, fun b hb => found b (List.mem_append_right _ ?_)⟩
  exact List.mem_flatten.mpr ⟨blobs, hblobs, hb⟩

theorem groupTables_named (numbered : e.groupTables.map (·.modelId) = List.range groups)
    (few : groups < 2 ^ 31) (h : e.blobs = .ok energies)
    (found : ∀ b ∈ energies, Found set simulation b) :
    ∀ k < groups, set.Names simulation .clusterTable (Int32.ofNat k) ∧
      set.Names simulation .occupationCodes (Int32.ofNat k) ∧
      set.Names simulation .particleTableBuffer (Int32.ofNat k) := by
  intro k hk
  obtain ⟨t, _, rfl, blobs, made, found⟩ := groupTable_found numbered h found k hk
  obtain ⟨table, codes, htable, hcodes, rfl⟩ := GroupTable.blobs_ok made
  have fits : t.modelId < 2 ^ 31 := by omega
  exact ⟨(found table (by simp)).names (ofTable_ok htable).1 fits,
    (found codes (by simp)).names (ofTable_ok hcodes).1 fits,
    (found _ (List.mem_of_getElem? (i := 2) rfl)).names rfl fits⟩

theorem buffers_resolve (numbered : e.groupTables.map (·.modelId) = List.range groups)
    (rows : ∀ t ∈ e.groupTables, t.table.rowCount = t.centers.length) (h : e.blobs = .ok energies)
    (found : ∀ b ∈ energies, Found set simulation b) : ∀ k < groups,
      ∃ (buffer : ParticleBuffer) (rows columns : Nat) (values : List Binary64),
        set.Holds simulation .particleTableBuffer (some k) [buffer] ∧
        set.HoldsTable simulation Codec.binary64 .clusterTable (some k) [rows, columns] values ∧
        ∀ entry ∈ buffer.entries, entry = ParticleBuffer.unusedEntry ∨ entry.toNat < rows := by
  intro k hk
  obtain ⟨t, ht, rfl, blobs, made, found⟩ := groupTable_found numbered h found k hk
  obtain ⟨table, codes, htable, hcodes, rfl⟩ := GroupTable.blobs_ok made
  exact ⟨t.rowBuffer, _, _, _, (found _ (List.mem_of_getElem? (i := 2) rfl)).1,
    (found table (by simp)).holdsTable htable, rows t ht ▸ t.rowBuffer_entries⟩

end Energies

section Outputs

open SimulationModel TransitionNetwork

variable {info : LatticeInfo} {structured : CrystalStructure} {t : TransitionNetwork}
  {s : SimulationModel} {energies tables : List KeyedBlob} {set : BlobSet}

theorem holdsModels_of_found (fits : Fits structured s)
    (numbered : s.collections.map (·.id) = List.range s.collections.length)
    (found : ∀ b ∈ s.listed info structured t energies tables, Found set s.simulation b) :
    HoldsModels set structured t s := by
  have structural : ∀ b ∈ structured.blobs, Found set s.simulation b :=
    fun b hb => found b (by simp [SimulationModel.listed, hb])
  have jumps : ∀ b ∈ s.directionBlobs t, Found set s.simulation b :=
    fun b hb => found b (by simp [SimulationModel.listed, hb])
  have cell : ∀ {p : Nat} {c : CellPosition}, structured.cellPositions[p]? = some c →
      ∀ b ∈ [KeyedBlob.ofRecords .pairDefinitions (some p) (CrystalStructure.pairRecords c),
        .ofRecords .clusterDefinitions (some p) (structured.clusterRecords c)],
        b ∈ structured.blobs := by
    intro p c hc b hb
    exact List.mem_flatMap.mpr ⟨(c, p), List.mem_zipIdx_iff_getElem?.mpr hc, hb⟩
  have direction : ∀ x ∈ s.mappedDirections t, ∀ b ∈ x.1.blobs x.2, b ∈ s.directionBlobs t := by
    intro x hx b hb
    refine List.mem_append_left _ (List.mem_append_right _ ?_)
    exact List.mem_flatMap.mpr ⟨x, hx, hb⟩
  refine ⟨fun p c hc => holds_of_found (structural _ (cell hc _ (by simp))),
    fun p c hc => holds_of_found (structural _ (cell hc _ (by simp))),
    fun x hx => holds_of_found (jumps _ (direction x hx _ (by simp [JumpDirection.blobs]))),
    fun x hx => holds_of_found (jumps _ (direction x hx _ (by simp [JumpDirection.blobs]))),
    fun c hc => ?_⟩
  have inside : c.id < s.collections.length := by
    rw [← List.mem_range, ← numbered]
    exact List.mem_map_of_mem hc
  have listed : KeyedBlob.ofRecords .jumpRules (some c.id) ((c.rules.filterMap (t.rules[·]?)).map
      (·.record s.kind s.maxFrequency)) ∈ s.ruleBlobs t := List.mem_map.mpr ⟨c, hc, rfl⟩
  have among := List.mem_append_right ([.ofRecords .latticeInfo none [info]] ++ structured.blobs ++
    energies) (List.mem_append_left tables (List.mem_append_right (s.directionBlobs t) listed))
  exact (found _ among).names rfl (Nat.lt_trans inside fits.collections)

variable [Trigonometry] [d : RandomSeeds] {r : ReferenceData} {settings : Settings}
  {config : Config} {energy : Energetics} {index : Nat} {sims : List SimulationModel}
  {issues : List Issue}

theorem assigned_below (fits : Fits structured s)
    (built : SimulationModel.build r config structured t index = .ok (s, issues)) :
    ∀ n ∈ s.index.assignments, n = -1 ∨ Below n s.directions.length := by
  obtain ⟨_, _, _, _, _, _, _, hindex⟩ := build_ok built
  intro n hn
  rw [hindex] at hn
  refine (JumpIndex.mem_assignments hn).imp_right ?_
  rintro ⟨entry, hentry, rfl⟩
  obtain ⟨direction, hmem, rfl⟩ := List.mem_map.mp hentry
  obtain ⟨d, hd⟩ := List.mem_iff_getElem?.mp hmem
  have inside := (List.getElem?_eq_some_iff.mp hd).1
  exact below_ofNat (direction_number built hd ▸ inside) (Nat.le_of_lt fits.directions)

/-- Every number in the blobs of a simulation leads to something in the same set. -/
theorem blobs_resolved (given : settings.config = .ok config)
    (structural : CrystalStructure.build r config = .ok structured)
    (powered : Energetics.build r config structured = .ok energy)
    (network : TransitionNetwork.build r config structured = .ok t)
    (built : SimulationModel.build r config structured t index = .ok (s, issues))
    (fits : Fits structured s)
    (output : StageResults.blobs ⟨some structured, some energy, some t, sims⟩ s = .ok set) :
    Resolved set s.simulation structured.positionTotal structured.groupClasses.length
      s.directions.length := by
  obtain ⟨info, energies, tables, _, hinfo, henergies, htables, rfl⟩ := StageResults.blobs_ok output
  obtain ⟨counts, assigned, _, hassigned, rfl⟩ := JumpIndex.blobs_ok htables
  have sound := CrystalStructure.sound_of_build structural
  obtain ⟨split, arranged⟩ := arranged_of_build network
  obtain ⟨_, limit⟩ := Settings.config_ok given
  obtain ⟨pairNumbers, groupNumbers⟩ := Energetics.numbered_of_build sound powered
  have few := latticeRecord_ok hinfo
  have aligned : structured.encoder.positions.length = structured.positionTotal :=
    sound.positions.aligned
  have found := StageResults.found_of_blobs info sound powered built henergies htables
  have holds := holdsModels_of_found fits (collections_numbered built) found
  have charged := fun b (hb : b ∈ energies) => found b (by simp [SimulationModel.listed, hb])
  have jumps := fun b (hb : b ∈ s.directionBlobs t) =>
    found b (by simp [SimulationModel.listed, hb])
  have count : (s.mappedDirections t).length = s.directions.length := by
    simpa using congrArg List.length (mappedDirections_numbered built)
  refine ⟨fun p hp => ?_, ?_, ⟨_, holds_of_found (jumps (.ofRecords .jumpDirections none _)
      (List.mem_append_left _ (List.mem_append_left _ List.mem_cons_self))), ?_, fun d x hx => ?_⟩,
    ⟨_, _, (found assigned (by simp [SimulationModel.listed])).holdsTable hassigned,
      assigned_below fits built⟩,
    ⟨_, holds_of_found (jumps (.ofRecords .globalMoves none _)
      (List.mem_append_right _ List.mem_cons_self)), ?_, fun d x hx => ?_⟩⟩
  · have hv := List.getElem?_eq_getElem (aligned ▸ hp : p < structured.encoder.positions.length)
    obtain ⟨c, _, hc, _⟩ := sound.cell hv
    exact ⟨_, _, holds.pairs p c hc, holds.clusters p c hc,
      pairRecords_resolve sound few (pairTables_named pairNumbers fits.pairTables henergies charged)
        hc,
      clusterRecords_resolve sound (fits.targets c (List.mem_of_getElem? hc))
        (groupTables_named groupNumbers fits.clusterTables henergies charged) hc⟩
  · exact buffers_resolve groupNumbers (Energetics.rows_of_build powered) henergies charged
  · rw [List.length_map, count]
  · rw [List.getElem?_map] at hx
    obtain ⟨⟨direction, y⟩, hmapped, rfl⟩ := Option.map_eq_some_iff.mp hx
    obtain ⟨hd, n, m, directed⟩ := mappedDirections_directed built hmapped
    have routed := arranged.routed sound directed.model directed.listed directed.mapping
    have short : max 2 config.maxPathLength ≤ 8 := by
      simp only [pathLimit] at limit
      omega
    rw [← aligned] at few ⊢
    exact directionRecord_resolves holds fits few short hd (List.mem_of_getElem? hmapped) directed
      routed
  · rw [List.length_map, count]
  · rw [List.getElem?_map] at hx
    obtain ⟨⟨direction, y⟩, hmapped, rfl⟩ := Option.map_eq_some_iff.mp hx
    obtain ⟨hd, n, m, directed⟩ := mappedDirections_directed built hmapped
    have inside := (List.getElem?_eq_some_iff.mp hd).1
    simp only [moveRecord, directed.number]
    exact Int32.toInt_ofNat_of_lt (Nat.lt_trans inside fits.directions)

end Outputs

open ReferenceData SimulationModel in
theorem twoChains_blobs_resolved : ∃ set, Resolved set 1 2 1 2 ∧
    ∃ structured energy t s, s.directions.length = 2 ∧
      StageResults.blobs ⟨some structured, some energy, some t, []⟩ s = .ok set := by
  have found : (do
      let structured ← @CrystalStructure.build rightAngle twoChains plainConfig
      let energy ← Energetics.build twoChains plainConfig structured
      let t ← @TransitionNetwork.build rightAngle twoChains plainConfig structured
      let sim ← checked twoChains 1
      let selected ← sim.transitions.foldlM (select twoChains t sim 1) []
      let built ← @ofSelection rightAngle _ twoChains plainConfig structured t 1 sim selected
      let _ ← StageResults.blobs ⟨some structured, some energy, some t, []⟩ built.1
      return (structured, t, selected, built.1) : Except BuildError
        (CrystalStructure × TransitionNetwork × List Nat × SimulationModel)).toOption.any
      fun (structured, t, selected, s) =>
        decide (selected.Pairwise fun a b => idOf t a ≤ idOf t b) &&
        decide (s.simulation = 1 ∧ structured.positionTotal = 2 ∧
          structured.groupClasses.length = 1 ∧ s.directions.length = 2) &&
        decide (structured.pairClasses.length < 2 ^ 31 ∧ s.collections.length < 2 ^ 31 ∧
          ∀ c ∈ structured.cellPositions, c.targets.length < 2 ^ 31) := by decide +kernel
  obtain ⟨⟨structured, t, selected, s⟩, h, facts⟩ := ok_of_any found
  obtain ⟨_, structural, h⟩ := bind_ok_iff.mp h
  obtain ⟨energy, powered, h⟩ := bind_ok_iff.mp h
  obtain ⟨_, network, h⟩ := bind_ok_iff.mp h
  obtain ⟨sim, hsim, h⟩ := bind_ok_iff.mp h
  obtain ⟨_, hselected, h⟩ := bind_ok_iff.mp h
  obtain ⟨built, simulation, h⟩ := bind_ok_iff.mp h
  obtain ⟨set, output, h⟩ := bind_ok_iff.mp h
  cases pure_ok_iff.mp h
  simp only [Bool.and_eq_true, decide_eq_true_eq] at facts
  obtain ⟨⟨ascending, number, positions, groups, directions⟩, pairs, collections, targets⟩ := facts
  rw [← @build_of_ascending twoChains t 1 selected rightAngle plainConfig structured _ sim hsim
    hselected ascending] at simulation
  have given : Settings.config ⟨some 1.0e-6, none, some 0, none, some false, none⟩ =
      .ok plainConfig := by decide +kernel
  have resolved :=
    @blobs_resolved structured t built.1 set rightAngle _ twoChains _ plainConfig energy 1
    [] built.2 given structural powered network simulation
    ⟨pairs, by omega, targets, by omega, collections⟩ output
  rw [number, positions, groups, directions] at resolved
  exact ⟨set, resolved, structured, energy, t, built.1, directions, output⟩

end CrystalModel
