import CrystalModel.Output.Build
import CrystalModel.Proofs.Binary.Verification
import CrystalModel.Proofs.Energy.Build
import CrystalModel.Proofs.Output.Key
import CrystalModel.Proofs.Simulation.Build
import Mathlib.Algebra.Group.Nat.Defs
import Mathlib.Data.List.Nodup

/-! # The blobs of a simulation

No two blobs of a simulation have one key: each part of the output has kinds of its own, and
numbers its blobs from zero on. So every blob of every part lies in the set under its key. All of
them are made of the records or values that their kinds are read with. -/
namespace CrystalModel

open Binary (BlobSet BlobType Codec)

namespace KeyedBlob

/-- What tells a blob from the others of its simulation. -/
def key (b : KeyedBlob) : BlobType × Option Nat := (b.kind, b.id)

def keysOf (kinds : List BlobType) (ids : List (Option Nat)) : List (BlobType × Option Nat) :=
  ids.flatMap fun id => kinds.map (·, id)

def numbers (n : Nat) : List (Option Nat) := (List.range n).map some

theorem numbers_nodup (n : Nat) : (numbers n).Nodup :=
  List.nodup_range.map fun _ _ => Option.some.inj

theorem mem_keysOf {kinds : List BlobType} {ids : List (Option Nat)} {kind : BlobType}
    {id : Option Nat} : (kind, id) ∈ keysOf kinds ids ↔ kind ∈ kinds ∧ id ∈ ids := by
  simp only [keysOf, List.mem_flatMap, List.mem_map, Prod.mk.injEq]
  constructor
  · rintro ⟨_, hid, _, hkind, rfl, rfl⟩
    exact ⟨hkind, hid⟩
  · rintro ⟨hkind, hid⟩
    exact ⟨id, hid, kind, hkind, rfl, rfl⟩

theorem keysOf_nodup {kinds : List BlobType} {ids : List (Option Nat)} (hkinds : kinds.Nodup)
    (hids : ids.Nodup) : (keysOf kinds ids).Nodup := by
  rw [keysOf, List.Nodup, List.pairwise_flatMap]
  constructor
  · intro id _
    exact hkinds.map fun _ _ same => congrArg Prod.fst same
  · refine List.Pairwise.imp (fun differ a ha b hb same => ?_) hids
    obtain ⟨_, _, rfl⟩ := List.mem_map.mp ha
    obtain ⟨_, _, rfl⟩ := List.mem_map.mp hb
    exact differ (congrArg Prod.snd same)

theorem parts_nodup {parts : List (List BlobType × List (Option Nat))}
    (kinds : (parts.flatMap (·.1)).Nodup) (ids : ∀ part ∈ parts, part.2.Nodup) :
    (parts.flatMap fun part => keysOf part.1 part.2).Nodup := by
  obtain ⟨own, apart⟩ := List.pairwise_flatMap.mp kinds
  refine List.pairwise_flatMap.mpr ⟨fun part hp => keysOf_nodup (own part hp) (ids part hp), ?_⟩
  refine apart.imp fun differ a ha b hb same => ?_
  obtain ⟨kind, id⟩ := a
  subst same
  exact differ kind (mem_keysOf.mp ha).1 kind (mem_keysOf.mp hb).1 rfl

theorem keys_flatMap {α : Type} {xs : List α} {f : α → List KeyedBlob} {id : α → Nat}
    {kinds : List BlobType} {n : Nat} (numbered : xs.map id = List.range n)
    (each : ∀ x ∈ xs, (f x).map key = kinds.map (·, some (id x))) :
    (xs.flatMap f).map key = keysOf kinds (numbers n) := by
  rw [keysOf, numbers, ← numbered, List.map_map, List.flatMap_map, List.map_flatMap]
  exact List.flatMap_congr each

theorem ofTable_ok {α : Type} {codec : Binary.Codec α} {kind : BlobType} {id : Option Nat}
    {dimensions : List Nat} {values : List α} {b : KeyedBlob}
    (h : ofTable codec kind id dimensions values = .ok b) : b.key = (kind, id) ∧
      b.blob.kind = kind ∧ Binary.Blob.ofTable codec kind dimensions values = .ok b.blob := by
  obtain ⟨blob, made, rfl⟩ := map_ok_iff.mp h
  refine ⟨rfl, ?_, made⟩
  unfold Binary.Blob.ofTable at made
  simp only at made
  split at made
  · cases made
  · cases made
    rfl

/-- A blob as its kind has it: a row of records of its size, or a table where it has none. -/
inductive Made : KeyedBlob → Prop where
  | records {α : Type} [Binary.Record α] {kind : BlobType}
      (lawful : (Binary.Record.codec (α := α)).Lawful)
      (sized : kind.recordSize? = some (Binary.Record.size α)) (id : Option Nat)
      (records : List α) : Made (ofRecords kind id records)
  | table {α : Type} {c : Codec α} {kind : BlobType} {id : Option Nat} {dimensions : List Nat}
      {values : List α} {b : KeyedBlob} (made : ofTable c kind id dimensions values = .ok b)
      (lawful : c.Lawful) (width : 0 < c.width ∧ c.width < 2 ^ 31)
      (rank : dimensions.length < 2 ^ 31) (plain : kind.recordSize? = none) : Made b

theorem Made.kind {b : KeyedBlob} (h : b.Made) : b.blob.kind = b.kind := by
  cases h with
  | records => rfl
  | table made =>
    obtain ⟨key, kind, _⟩ := ofTable_ok made
    exact kind.trans (congrArg Prod.fst key).symm

theorem Made.passes {b : KeyedBlob} (h : b.Made) (countable : b.blob.Countable) :
    BlobSet.checkBlob b.blob = .ok () := by
  cases h with
  | records lawful sized => exact BlobSet.checkBlob_ofRecords lawful sized countable
  | table made lawful width rank plain =>
    exact BlobSet.checkBlob_ofTable (ofTable_ok made).2.2 lawful width.1 width.2 rank plain
      countable

/-- The blob lies in the set under its key, and says itself of which kind it is. -/
def Found (set : BlobSet) (simulation : Nat) (b : KeyedBlob) : Prop :=
  set.get? (keyText simulation b.kind b.id) = some b.blob ∧ b.blob.kind = b.kind

theorem found_of_nodup {simulation : Nat} {blobs : List KeyedBlob}
    (distinct : (blobs.map key).Nodup) (kinds : ∀ b ∈ blobs, b.blob.kind = b.kind) :
    ∀ b ∈ blobs, Found (toSet simulation blobs) simulation b := by
  intro b hb
  refine ⟨get?_toSet_unique hb fun c hc kind id => ?_, kinds b hb⟩
  exact List.inj_on_of_nodup_map distinct hc hb (Prod.ext kind id)

end KeyedBlob

open KeyedBlob Binary.Record

theorem CrystalStructure.blobs_keys (s : CrystalStructure) : s.blobs.map key =
    keysOf [.pairDefinitions, .clusterDefinitions] (numbers s.cellPositions.length) := by
  refine keys_flatMap (List.zipIdx_map_snd 0 _ |>.trans (List.range_eq_range').symm) ?_
  rintro ⟨p, id⟩ _
  rfl

theorem CrystalStructure.blobs_made (s : CrystalStructure) : ∀ b ∈ s.blobs, b.Made := by
  intro b hb
  obtain ⟨⟨p, id⟩, _, hb⟩ := List.mem_flatMap.mp hb
  simp only [List.mem_cons, List.not_mem_nil, or_false] at hb
  rcases hb with rfl | rfl
  · exact .records lawful_pairDefinition rfl _ _
  · exact .records lawful_clusterDefinition rfl _ _

theorem EnergyTable.blob_made {t : EnergyTable} {kind : BlobType} {id : Nat} {b : KeyedBlob}
    (h : t.blob kind id = .ok b) (plain : kind.recordSize? = none) : b.Made :=
  .table h Codec.lawful_binary64 (by decide) (by simp) plain

theorem GroupTable.blobs_ok {t : GroupTable} {blobs : List KeyedBlob} (h : t.blobs = .ok blobs) :
    ∃ table codes, t.table.blob .clusterTable t.modelId = .ok table ∧
      KeyedBlob.ofTable Binary.Codec.int64 .occupationCodes (some t.modelId) [t.codes.length]
        t.codes = .ok codes ∧
      blobs = [table, codes, .ofRecords .particleTableBuffer (some t.modelId) [t.rowBuffer]] := by
  obtain ⟨table, htable, h⟩ := bind_ok_iff.mp h
  obtain ⟨codes, hcodes, h⟩ := bind_ok_iff.mp h
  exact ⟨table, codes, htable, hcodes, (pure_ok_iff.mp h).symm⟩

namespace Energetics

variable {e : Energetics} {blobs : List KeyedBlob}

theorem blobs_ok (h : e.blobs = .ok blobs) : ∃ pairs groups,
    List.Forall₂ (fun (t : PairTable) b => t.table.blob .pairTable t.modelId = .ok b)
      e.pairTables pairs ∧
    List.Forall₂ (fun (t : GroupTable) bs => t.blobs = .ok bs) e.groupTables groups ∧
    blobs = pairs ++ groups.flatten := by
  obtain ⟨pairs, hpairs, h⟩ := bind_ok_iff.mp h
  obtain ⟨groups, hgroups, h⟩ := bind_ok_iff.mp h
  exact ⟨pairs, groups, mapM_ok_iff.mp hpairs, mapM_ok_iff.mp hgroups, (pure_ok_iff.mp h).symm⟩

theorem blobs_keys {pairs groups : Nat}
    (numbered : e.pairTables.map (·.modelId) = List.range pairs ∧
    e.groupTables.map (·.modelId) = List.range groups) (h : e.blobs = .ok blobs) :
    blobs.map key = keysOf [.pairTable] (numbers pairs) ++
      keysOf [.clusterTable, .occupationCodes, .particleTableBuffer] (numbers groups) := by
  obtain ⟨pairBlobs, groupBlobs, hpairs, hgroups, rfl⟩ := blobs_ok h
  have pairKeys : e.pairTables.map (fun t => (BlobType.pairTable, some t.modelId)) =
      pairBlobs.map key := map_eq_of_aligned (hpairs.imp fun t b h => (ofTable_ok h).1.symm)
  have groupKeys : e.groupTables.map (fun t =>
        [BlobType.clusterTable, .occupationCodes, .particleTableBuffer].map (·, some t.modelId)) =
      groupBlobs.map (·.map key) := by
    refine map_eq_of_aligned (hgroups.imp fun t bs h => ?_)
    obtain ⟨table, codes, htable, hcodes, rfl⟩ := GroupTable.blobs_ok h
    simp only [List.map_cons, (ofTable_ok htable).1, (ofTable_ok hcodes).1]
    rfl
  rw [List.map_append, List.map_flatten, ← groupKeys, ← pairKeys, keysOf, keysOf, numbers, numbers,
    ← numbered.1, ← numbered.2]
  simp only [List.map_map, List.flatMap_def]
  congr 1
  rw [List.map_eq_flatMap, List.flatMap_def]
  rfl

theorem blobs_made (h : e.blobs = .ok blobs) : ∀ b ∈ blobs, b.Made := by
  obtain ⟨pairs, groups, hpairs, hgroups, rfl⟩ := blobs_ok h
  intro b hb
  rcases List.mem_append.mp hb with hb | hb
  · obtain ⟨t, _, made⟩ := aligned_mem_right hpairs hb
    exact EnergyTable.blob_made made rfl
  · obtain ⟨bs, hbs, hb⟩ := List.mem_flatten.mp hb
    obtain ⟨t, _, made⟩ := aligned_mem_right hgroups hbs
    obtain ⟨table, codes, htable, hcodes, rfl⟩ := GroupTable.blobs_ok made
    simp only [List.mem_cons, List.not_mem_nil, or_false] at hb
    rcases hb with rfl | rfl | rfl
    · exact EnergyTable.blob_made htable rfl
    · exact .table hcodes Codec.lawful_int64 (by decide) (by simp) rfl
    · exact .records lawful_particleBuffer rfl _ _

end Energetics

theorem JumpIndex.blobs_ok {index : JumpIndex} {blobs : List KeyedBlob}
    (h : index.blobs = .ok blobs) : ∃ counts assigned,
      KeyedBlob.ofTable Binary.Codec.int32 .jumpCounts none
        [index.counts.length, index.particleCount] index.counts.flatten = .ok counts ∧
      KeyedBlob.ofTable Binary.Codec.int32 .jumpAssign none
        [index.counts.length, index.particleCount, index.maxDirections]
        index.assignments = .ok assigned ∧
      blobs = [counts, assigned] := by
  obtain ⟨counts, hcounts, h⟩ := bind_ok_iff.mp h
  obtain ⟨assigned, hassigned, h⟩ := bind_ok_iff.mp h
  exact ⟨counts, assigned, hcounts, hassigned, (pure_ok_iff.mp h).symm⟩

theorem JumpIndex.blobs_made {index : JumpIndex} {blobs : List KeyedBlob}
    (h : index.blobs = .ok blobs) : ∀ b ∈ blobs, b.Made := by
  obtain ⟨counts, assigned, hcounts, hassigned, rfl⟩ := JumpIndex.blobs_ok h
  intro b hb
  simp only [List.mem_cons, List.not_mem_nil, or_false] at hb
  rcases hb with rfl | rfl
  · exact .table hcounts Codec.lawful_int32 (by decide) (by simp) rfl
  · exact .table hassigned Codec.lawful_int32 (by decide) (by simp) rfl

namespace SimulationModel

variable {s : SimulationModel} {structured : CrystalStructure}

theorem directionBlobs_made (s : SimulationModel) (t : TransitionNetwork) :
    ∀ b ∈ s.directionBlobs t, b.Made := by
  intro b hb
  simp only [directionBlobs, List.mem_append, List.mem_singleton, List.mem_flatMap] at hb
  rcases hb with (rfl | ⟨⟨d, m⟩, _, hb⟩) | rfl
  · exact .records lawful_jumpDirection rfl _ _
  · simp only [JumpDirection.blobs, List.mem_cons, List.not_mem_nil, or_false] at hb
    rcases hb with rfl | rfl
    · exact .records lawful_jumpLink rfl _ _
    · exact .records lawful_moveVector rfl _ _
  · exact .records lawful_moveVector rfl _ _

theorem ruleBlobs_made (s : SimulationModel) (t : TransitionNetwork) :
    ∀ b ∈ s.ruleBlobs t, b.Made := by
  intro b hb
  obtain ⟨c, _, rfl⟩ := List.mem_map.mp hb
  exact .records lawful_jumpRule rfl _ _

variable {t : TransitionNetwork}

/-- Directions and collections carry their places as ids, and the mapping of every direction is
there. -/
structure Numbered (s : SimulationModel) (t : TransitionNetwork) : Prop where
  directions : s.directions.map (·.id) = List.range s.directions.length
  mappings : ∀ x ∈ s.directions, ∃ y, t.mappings[x.mapping]? = some y
  collections : s.collections.map (·.id) = List.range s.collections.length

theorem Numbered.mappedDirections (numbered : Numbered s t) :
    (s.mappedDirections t).map (·.1.id) = List.range s.directions.length := by
  rw [SimulationModel.mappedDirections, List.map_filterMap,
    ← List.map_id' (List.range s.directions.length)]
  refine filterMap_eq_map_range fun d x hd => ?_
  obtain ⟨y, mapping⟩ := numbered.mappings x (List.mem_of_getElem? hd)
  have number : (s.directions.map (·.id))[d]? = some x.id := by rw [List.getElem?_map, hd]; rfl
  rw [numbered.directions] at number
  obtain ⟨_, number⟩ := List.getElem?_eq_some_iff.mp number
  rw [List.getElem_range] at number
  rw [mapping, Option.map_some, Option.map_some, number]

theorem Numbered.directionBlobs_keys (numbered : Numbered s t) :
    (s.directionBlobs t).map key = [(.jumpDirections, none)] ++
      keysOf [.jumpLinks, .moveVectors] (numbers s.directions.length) ++
      [(.globalMoves, none)] := by
  simp only [directionBlobs, List.map_append]
  congr 2
  refine keys_flatMap numbered.mappedDirections ?_
  rintro ⟨d, m⟩ _
  rfl

theorem Numbered.ruleBlobs_keys (numbered : Numbered s t) :
    (s.ruleBlobs t).map key = keysOf [.jumpRules] (numbers s.collections.length) := by
  rw [ruleBlobs, List.map_eq_flatMap (l := s.collections)]
  refine keys_flatMap numbered.collections ?_
  intro c _
  rfl

variable [Trigonometry] [d : RandomSeeds] {r : ReferenceData} {config : Config} {index : Nat}
  {issues : List Issue}

theorem mappedDirections_getElem? (h : build r config structured t index = .ok (s, issues))
    (d : Nat) : (s.mappedDirections t)[d]? =
      s.directions[d]?.bind fun x => t.mappings[x.mapping]?.map fun m => (x, m) := by
  refine getElem?_filterMap_of_isSome (fun x hx => ?_) d
  obtain ⟨d, hd⟩ := List.mem_iff_getElem?.mp hx
  obtain ⟨_, _, y, directed⟩ := directed_of_build h hd
  exact ⟨(x, y), by rw [directed.mapping]; rfl⟩

theorem mappedDirections_directed (h : build r config structured t index = .ok (s, issues))
    {d : Nat}
    {direction : JumpDirection} {y : Mapping}
    (hd : (s.mappedDirections t)[d]? = some (direction, y)) :
    s.directions[d]? = some direction ∧ ∃ n m, Directed structured t s d direction n m y := by
  rw [mappedDirections_getElem? h] at hd
  obtain ⟨_, hd, hy⟩ := Option.bind_eq_some_iff.mp hd
  obtain ⟨_, hz, same⟩ := Option.map_eq_some_iff.mp hy
  cases same
  obtain ⟨n, m, _, directed⟩ := directed_of_build h hd
  rw [directed.mapping, Option.some.injEq] at hz
  exact ⟨hd, n, m, hz ▸ directed⟩

theorem directions_numbered (h : build r config structured t index = .ok (s, issues)) :
    s.directions.map (·.id) = List.range s.directions.length := by
  refine List.ext_getElem (by simp) fun d hd _ => ?_
  rw [List.length_map] at hd
  simp [direction_number h (List.getElem?_eq_getElem hd)]

theorem collections_numbered (h : build r config structured t index = .ok (s, issues)) :
    s.collections.map (·.id) = List.range s.collections.length := by
  obtain ⟨_, _, hselection, _, _, hcollections, _, _⟩ := build_ok h
  obtain ⟨selects, _⟩ := selection_ok hselection
  have few : s.collections.length ≤ s.transitions.length := by
    rw [hcollections, collectionsOf]
    exact Nat.le_trans (List.length_filterMap_le _ _) (Nat.le_of_eq List.length_zipIdx)
  refine List.ext_getElem (by simp) fun c hc _ => ?_
  rw [List.length_map] at hc
  have hn : s.transitions[c]? = some s.transitions[c] := List.getElem?_eq_getElem (by omega)
  obtain ⟨m, hm, _⟩ := selects.model (List.mem_of_getElem? hn)
  have found := collectionsOf_getElem? selects hn hm
  rw [← hcollections, List.getElem?_eq_getElem hc, Option.some.injEq] at found
  simp [found]

theorem numbered_of_build (h : build r config structured t index = .ok (s, issues)) :
    Numbered s t where
  directions := directions_numbered h
  mappings := by
    intro x hx
    obtain ⟨d, hd⟩ := List.mem_iff_getElem?.mp hx
    obtain ⟨_, _, y, directed⟩ := directed_of_build h hd
    exact ⟨y, directed.mapping⟩
  collections := collections_numbered h

theorem mappedDirections_numbered (h : build r config structured t index = .ok (s, issues)) :
    (s.mappedDirections t).map (·.1.id) = List.range s.directions.length :=
  (numbered_of_build h).mappedDirections

end SimulationModel

def SimulationModel.listed (s : SimulationModel) (info : Binary.LatticeInfo)
    (structured : CrystalStructure) (t : TransitionNetwork) (energies tables : List KeyedBlob) :
    List KeyedBlob :=
  [.ofRecords .latticeInfo none [info]] ++ structured.blobs ++ energies ++
    (s.directionBlobs t ++ s.ruleBlobs t ++ tables)

theorem SimulationModel.listed_made (s : SimulationModel) (info : Binary.LatticeInfo)
    (structured : CrystalStructure) (t : TransitionNetwork) {energy : Energetics}
    {energies tables : List KeyedBlob} (henergies : energy.blobs = .ok energies)
    (htables : s.index.blobs = .ok tables) :
    ∀ b ∈ s.listed info structured t energies tables, b.Made := by
  intro b hb
  simp only [listed, List.mem_append, List.mem_singleton] at hb
  rcases hb with ((rfl | hb) | hb) | (hb | hb) | hb
  · exact .records lawful_latticeInfo rfl _ _
  · exact structured.blobs_made b hb
  · exact Energetics.blobs_made henergies b hb
  · exact s.directionBlobs_made t b hb
  · exact s.ruleBlobs_made t b hb
  · exact JumpIndex.blobs_made htables b hb

namespace StageResults

variable {structured : CrystalStructure} {energy : Energetics} {t : TransitionNetwork}
  {sims : List SimulationModel} {c : StageResults} {s : SimulationModel} {set : BlobSet}

theorem result_ok_iff {α : Type} {stage : Stage} {built : Option α} {a : α} :
    result stage built = .ok a ↔ built = some a := by
  cases built <;> simp [result]

theorem complete_of_blobs (h : c.blobs s = .ok set) : ∃ structured energy t,
    c = ⟨some structured, some energy, some t, c.simulations⟩ := by
  obtain ⟨_, _, h⟩ := bind_ok_iff.mp h
  obtain ⟨structured, hs, h⟩ := bind_ok_iff.mp h
  obtain ⟨energy, he, h⟩ := bind_ok_iff.mp h
  obtain ⟨t, ht, _⟩ := bind_ok_iff.mp h
  refine ⟨structured, energy, t, ?_⟩
  rw [← result_ok_iff.mp hs, ← result_ok_iff.mp he, ← result_ok_iff.mp ht]

theorem blobs_ok (h : blobs ⟨some structured, some energy, some t, sims⟩ s = .ok set) :
    ∃ info energies tables, s.checkPaths t = .ok () ∧ s.latticeRecord structured = .ok info ∧
      energy.blobs = .ok energies ∧ s.index.blobs = .ok tables ∧
      set = toSet s.simulation (s.listed info structured t energies tables) := by
  obtain ⟨⟨⟩, _, h⟩ := bind_ok_iff.mp h
  obtain ⟨_, ⟨⟩, h⟩ := bind_ok_iff.mp h
  obtain ⟨_, ⟨⟩, h⟩ := bind_ok_iff.mp h
  obtain ⟨_, ⟨⟩, h⟩ := bind_ok_iff.mp h
  obtain ⟨⟨⟩, paths, h⟩ := bind_ok_iff.mp h
  obtain ⟨info, hinfo, h⟩ := bind_ok_iff.mp h
  obtain ⟨energies, henergies, h⟩ := bind_ok_iff.mp h
  obtain ⟨jumps, hjumps, h⟩ := bind_ok_iff.mp h
  obtain ⟨tables, htables, hjumps⟩ := bind_ok_iff.mp (mapError_ok_iff.mp hjumps)
  rw [← pure_ok_iff.mp h, ← pure_ok_iff.mp hjumps]
  exact ⟨info, energies, tables, paths, hinfo, mapError_ok_iff.mp henergies, htables, rfl⟩

theorem listed_keys (info : Binary.LatticeInfo) {energies tables : List KeyedBlob}
    {pairs groups : Nat} (charged : energy.pairTables.map (·.modelId) = List.range pairs ∧
      energy.groupTables.map (·.modelId) = List.range groups)
    (numbered : s.Numbered t) (henergies : energy.blobs = .ok energies)
    (htables : s.index.blobs = .ok tables) :
    (s.listed info structured t energies tables).map key =
      [([.latticeInfo], [none]),
        ([.pairDefinitions, .clusterDefinitions], numbers structured.cellPositions.length),
        ([.pairTable], numbers pairs),
        ([.clusterTable, .occupationCodes, .particleTableBuffer], numbers groups),
        ([.jumpDirections], [none]), ([.jumpLinks, .moveVectors], numbers s.directions.length),
        ([.globalMoves], [none]), ([.jumpRules], numbers s.collections.length),
        ([.jumpCounts, .jumpAssign], [none])].flatMap fun part => keysOf part.1 part.2 := by
  obtain ⟨counts, assigned, hcounts, hassigned, rfl⟩ := JumpIndex.blobs_ok htables
  simp only [SimulationModel.listed, List.map_append, structured.blobs_keys,
    Energetics.blobs_keys charged henergies, numbered.directionBlobs_keys,
    numbered.ruleBlobs_keys, List.map_cons, List.map_nil, (ofTable_ok hcounts).1,
    (ofTable_ok hassigned).1, List.flatMap_cons, List.flatMap_nil, List.append_assoc]
  rfl

theorem listed_nodup (info : Binary.LatticeInfo) {energies tables : List KeyedBlob}
    {pairs groups : Nat} (charged : energy.pairTables.map (·.modelId) = List.range pairs ∧
      energy.groupTables.map (·.modelId) = List.range groups)
    (numbered : s.Numbered t) (henergies : energy.blobs = .ok energies)
    (htables : s.index.blobs = .ok tables) :
    ((s.listed info structured t energies tables).map key).Nodup := by
  rw [listed_keys info charged numbered henergies htables]
  refine parts_nodup ?_ (by simp [numbers_nodup])
  simp only [List.flatMap_cons, List.flatMap_nil]
  decide

variable [Trigonometry] [d : RandomSeeds] {r : ReferenceData} {config : Config} {index : Nat}
  {issues : List Issue}

/-- Every blob of an output lies in the set under a key of its own. -/
theorem found_of_blobs (info : Binary.LatticeInfo) {energies tables : List KeyedBlob}
    (sound : CrystalStructure.Sound r structured)
    (powered : Energetics.build r config structured = .ok energy)
    (built : SimulationModel.build r config structured t index = .ok (s, issues))
    (henergies : energy.blobs = .ok energies) (htables : s.index.blobs = .ok tables) :
    ∀ b ∈ s.listed info structured t energies tables,
      Found (toSet s.simulation (s.listed info structured t energies tables)) s.simulation b :=
  found_of_nodup (listed_nodup info (Energetics.numbered_of_build sound powered)
      (SimulationModel.numbered_of_build built) henergies htables)
    fun b hb => (s.listed_made info structured t henergies htables b hb).kind

end StageResults

end CrystalModel
