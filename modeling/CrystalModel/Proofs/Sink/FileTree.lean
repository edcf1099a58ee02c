import CrystalModel.Sink.FileTree

/-! # The nodes of a file tree

What the operations on a tree do to its directories and to its files, place by place. A path leads
to the same place as long as no directory is lost. -/
namespace CrystalModel

open Binary (Bytes)

def FileNode.bytes? : FileNode → Option Bytes
  | .directory => none
  | .file bytes => some bytes

namespace FileTree

variable {t t' : FileTree} {here place q path source target : FilePath} {bytes : Bytes}

def bytesAt (t : FileTree) (place : FilePath) : Option Bytes := (t.node? place).bind FileNode.bytes?

theorem bytesAt_eq_some_iff :
    t.bytesAt place = some bytes ↔ t.node? place = some (.file bytes) := by
  rw [bytesAt]
  cases t.node? place with
  | none => simp
  | some node => cases node <;> simp [FileNode.bytes?]

theorem isDirectory_iff : t.isDirectory place = true ↔ t.node? place = some .directory := by
  simp [isDirectory]

theorem isDirectory_of_bytesAt (h : t.bytesAt place = some bytes) :
    t.isDirectory place = false := by
  rw [isDirectory, bytesAt_eq_some_iff.mp h]
  rfl

theorem isDirectory_of_above (h : place.all (· == "..") = true) : t.isDirectory place = true := by
  rw [isDirectory, node?, if_pos h]
  rfl

@[simp] theorem bytesAt_empty : empty.bytesAt place = none := by
  rw [bytesAt, node?]
  split <;> rfl

theorem node?_eq_none_iff :
    t.node? place = none ↔ t.isDirectory place = false ∧ t.bytesAt place = none := by
  rw [isDirectory, bytesAt]
  cases t.node? place with
  | none => simp
  | some node => cases node <;> simp [FileNode.bytes?]

theorem file?_eq [RootDirectory] : t.file? path = (t.locate path).bind t.bytesAt := by
  rw [file?]
  cases t.locate path with
  | none => rfl
  | some place =>
    simp only [Option.bind_eq_bind, Option.bind_some, bytesAt]
    cases t.node? place with
    | none => rfl
    | some node => cases node <;> rfl

/-! ## Nodes that go -/

theorem lookup_filter (keep : FilePath → Bool) :
    (t.filter fun entry => keep entry.1).lookup q = if keep q then t.lookup q else none := by
  induction t with
  | nil => simp
  | cons entry rest ih =>
    obtain ⟨first, node⟩ := entry
    rw [List.filter_cons]
    by_cases same : q = first
    · subst same
      by_cases kept : keep q
      · simp [kept]
      · simp [kept, ih]
    · have differ : (q == first) = false := beq_eq_false_iff_ne.mpr same
      by_cases kept : keep first
      · simp [kept, List.lookup_cons, differ, ih]
      · simp [kept, List.lookup_cons, differ, ih]

theorem node?_filter (keep : FilePath → Bool) :
    node? (t.filter fun entry => keep entry.1) q =
      if keep q || q.all (· == "..") then t.node? q else none := by
  rw [node?, node?, lookup_filter]
  by_cases above : q.all (· == "..") = true
  · rw [if_pos above, if_pos above, if_pos (by rw [above, Bool.or_true])]
  · rw [if_neg above, if_neg above, eq_false_of_ne_true above, Bool.or_false]

theorem bytesAt_filter (keep : FilePath → Bool) :
    bytesAt (t.filter fun entry => keep entry.1) q = if keep q then t.bytesAt q else none := by
  rw [bytesAt, bytesAt, node?_filter]
  by_cases kept : keep q = true
  · rw [kept, Bool.true_or, if_pos rfl, if_pos rfl]
  · rw [if_neg kept, eq_false_of_ne_true kept, Bool.false_or]
    split
    · next above => rw [node?, if_pos above]; rfl
    · rfl

theorem isDirectory_filter (keep : FilePath → Bool) (h : t.isDirectory q → keep q) :
    isDirectory (t.filter fun entry => keep entry.1) q = t.isDirectory q := by
  rw [isDirectory, node?_filter]
  split
  · rfl
  · next dropped =>
    rw [Bool.or_eq_true, not_or] at dropped
    exact (eq_false_of_ne_true fun dir => dropped.1 (h dir)).symm

@[simp] theorem bytesAt_remove :
    (t.remove place).bytesAt q = if q = place then none else t.bytesAt q := by
  rw [remove, bytesAt_filter (· != place)]
  by_cases same : q = place <;> simp [same]

theorem isDirectory_remove (h : t.isDirectory place = false) :
    (t.remove place).isDirectory q = t.isDirectory q := by
  refine isDirectory_filter (· != place) fun dir => bne_iff_ne.mpr fun same => ?_
  rw [same, h] at dir
  cases dir

theorem bytesAt_removeDirectory_of_outside (h : ¬ place <+: q) :
    (t.removeDirectory place).bytesAt q = t.bytesAt q := by
  rw [removeDirectory]
  split
  · rw [bytesAt_filter (fun q => !place.isPrefixOf q)]
    simp [h]
  · rfl

/-! ## Nodes that come -/

theorem node?_put {node : FileNode} (h : t.isDirectory place = false ∨ node = .directory) :
    (t.put place node).node? q = if q = place then some node else t.node? q := by
  rw [put, remove]
  by_cases same : q = place
  · subst same
    rw [if_pos rfl, node?]
    split
    · next above =>
      rcases h with h | rfl
      · rw [isDirectory_of_above above] at h
        cases h
      · rfl
    · exact List.lookup_cons_self
  · have differ : (q == place) = false := beq_eq_false_iff_ne.mpr same
    have kept : (q != place) = true := bne_iff_ne.mpr same
    rw [if_neg same, node?, node?, List.lookup_cons, differ]
    simp only [lookup_filter (· != place), kept, if_true]

theorem bytesAt_put_file (h : t.isDirectory place = false) :
    (t.put place (.file bytes)).bytesAt q = if q = place then some bytes else t.bytesAt q := by
  rw [bytesAt, node?_put (.inl h), apply_ite (Option.bind · FileNode.bytes?)]
  rfl

theorem isDirectory_put_file (h : t.isDirectory place = false) :
    (t.put place (.file bytes)).isDirectory q = t.isDirectory q := by
  rw [isDirectory, node?_put (.inl h)]
  split
  · next same => rw [same, h]; rfl
  · rfl

theorem bytesAt_put_directory (h : t.bytesAt place = none) :
    (t.put place .directory).bytesAt q = t.bytesAt q := by
  rw [bytesAt, node?_put (.inr rfl), apply_ite (Option.bind · FileNode.bytes?)]
  split
  · next same => rw [same, h]; rfl
  · rfl

theorem isDirectory_put_directory :
    (t.put place .directory).isDirectory q = true ↔ q = place ∨ t.isDirectory q := by
  rw [isDirectory_iff, node?_put (.inr rfl), isDirectory_iff]
  split <;> simp [*]

/-! ## Directories along a path -/

def Keeps (t t' : FileTree) : Prop := ∀ place, t.isDirectory place → t'.isDirectory place

theorem Keeps.refl (t : FileTree) : Keeps t t := fun _ dir => dir

theorem Keeps.trans {t'' : FileTree} (h : Keeps t t') (h' : Keeps t' t'') : Keeps t t'' :=
  fun place dir => h' place (h place dir)

theorem put_keeps {node : FileNode} (h : t.isDirectory place = false ∨ node = .directory) :
    Keeps t (t.put place node) := by
  intro q dir
  rw [isDirectory_iff, node?_put h]
  split
  · next same =>
    rcases h with free | rfl
    · rw [same, free] at dir
      cases dir
    · rfl
  · exact isDirectory_iff.mp dir

theorem Keeps.walk (h : Keeps t t') (found : t.walk here path = some place) :
    t'.walk here path = some place := by
  induction path generalizing here with
  | nil => exact found
  | cons name rest ih =>
    rw [FileTree.walk] at found ⊢
    by_cases dir : t.isDirectory here = true
    · simp only [dir, h here dir, Bool.not_true, Bool.false_eq_true, if_false] at found ⊢
      split
      · next stays => exact ih (by simpa [stays] using found)
      · next moves =>
        rw [if_neg moves] at found
        split
        · next up => exact ih (by simpa [up] using found)
        · next down =>
          rw [if_neg down] at found
          split
          · next fits => exact ih (by simpa [fits] using found)
          · next long => simp [long] at found
    · simp [dir] at found

theorem Keeps.locate [RootDirectory] (h : Keeps t t') (found : t.locate path = some place) :
    t'.locate path = some place := by
  rw [FileTree.locate] at found ⊢
  by_cases usable : path.isUsable = true
  · rw [if_pos usable] at found ⊢
    exact h.walk found
  · rw [if_neg usable] at found
    cases found

theorem Keeps.locate_iff [RootDirectory] (h : Keeps t t') (found : ∃ q, t.locate path = some q) :
    t'.locate path = some place ↔ t.locate path = some place := by
  obtain ⟨q, found⟩ := found
  rw [h.locate found, found]

theorem pave_keeps (t : FileTree) (here : FilePath) (names : List String) :
    Keeps t (t.pave here names).2 ∧ ∀ q, (t.pave here names).2.bytesAt q = t.bytesAt q := by
  fun_induction pave t here names with
  | case1 t here => exact ⟨.refl t, fun _ => rfl⟩
  | case2 t here name rest stays ih => exact ih
  | case3 t here name rest moves up ih => exact ih
  | case4 t here name rest moves down next there ih => exact ih
  | case5 t here name rest moves down next bytes there => exact ⟨.refl t, fun _ => rfl⟩
  | case6 t here name rest moves down next absent refused => exact ⟨.refl t, fun _ => rfl⟩
  | case7 t here name rest moves down next absent fits ih =>
    obtain ⟨keeps, files⟩ := ih
    have free := (node?_eq_none_iff.mp absent).2
    exact ⟨(put_keeps (.inr rfl)).trans keeps,
      fun q => (files q).trans (bytesAt_put_directory free)⟩

theorem createDirectories_keeps [RootDirectory] (t : FileTree) (path : FilePath) :
    Keeps t (t.createDirectories path).2 ∧
      ∀ q, (t.createDirectories path).2.bytesAt q = t.bytesAt q := by
  rw [createDirectories]
  split
  · exact pave_keeps t [] path
  · exact ⟨.refl t, fun _ => rfl⟩

/-! ## Files that move -/

theorem file?_eq_some_iff [RootDirectory] : t.file? path = some bytes ↔
    ∃ place, t.locate path = some place ∧ t.bytesAt place = some bytes := by
  rw [file?_eq, Option.bind_eq_some_iff]

theorem putFile_eq_some_iff : t.putFile place bytes = some t' ↔
    t.isDirectory place = false ∧ t' = t.put place (.file bytes) := by
  rw [putFile]
  split
  · next dir => simp [dir]
  · next free => simp [eq_false_of_ne_true free, eq_comm]

theorem rename_eq_some_iff [RootDirectory] : t.rename source target = some t' ↔
    ∃ old new bytes, t.locate source = some old ∧ t.bytesAt old = some bytes ∧
      t.locate target = some new ∧ t.isDirectory new = false ∧
      t' = (t.remove old).put new (.file bytes) := by
  have kept : ∀ {old new bytes}, t.bytesAt old = some bytes →
      (t.remove old).isDirectory new = t.isDirectory new := fun file =>
    isDirectory_remove (isDirectory_of_bytesAt file)
  simp only [rename, Option.bind_eq_bind, Option.bind_eq_some_iff, file?_eq_some_iff,
    putFile_eq_some_iff]
  constructor
  · rintro ⟨bytes, ⟨old, found, file⟩, new, goal, old', found', free, rfl⟩
    obtain rfl : old = old' := Option.some.inj (found.symm.trans found')
    exact ⟨old, new, bytes, found, file, goal, kept file ▸ free, rfl⟩
  · rintro ⟨old, new, bytes, found, file, goal, free, rfl⟩
    exact ⟨bytes, ⟨old, found, file⟩, new, goal, old, found, (kept file).trans free, rfl⟩

theorem bytesAt_moved {old new : FilePath} (file : t.bytesAt old = some bytes)
    (free : t.isDirectory new = false) : ((t.remove old).put new (.file bytes)).bytesAt q =
      if q = new then some bytes else if q = old then none else t.bytesAt q := by
  have still : (t.remove old).isDirectory new = false := by
    rw [isDirectory_remove (isDirectory_of_bytesAt file), free]
  rw [bytesAt_put_file still, bytesAt_remove]

theorem isDirectory_moved {old new : FilePath} (file : t.bytesAt old = some bytes)
    (free : t.isDirectory new = false) :
    ((t.remove old).put new (.file bytes)).isDirectory q = t.isDirectory q := by
  have kept : ∀ q, (t.remove old).isDirectory q = t.isDirectory q := fun q =>
    isDirectory_remove (isDirectory_of_bytesAt file)
  rw [isDirectory_put_file ((kept new).trans free), kept]

theorem removeFile_eq [RootDirectory] (found : t.locate path = some place) :
    t.removeFile path = if (t.bytesAt place).isSome then t.remove place else t := by
  rw [removeFile, file?_eq, found, Option.bind_some]
  cases t.bytesAt place <;> rfl

theorem removeFile_keeps [RootDirectory] (t : FileTree) (path : FilePath) :
    Keeps t (t.removeFile path) := by
  cases found : t.locate path with
  | none =>
    rw [removeFile, file?_eq, found]
    exact .refl t
  | some place =>
    rw [removeFile_eq found]
    cases file : t.bytesAt place with
    | none => exact .refl t
    | some bytes =>
      exact fun q dir => (isDirectory_remove (isDirectory_of_bytesAt file)).trans dir

theorem bytesAt_removeFile [RootDirectory] (found : t.locate path = some place) :
    (t.removeFile path).bytesAt q = if q = place then none else t.bytesAt q := by
  rw [removeFile_eq found]
  split
  · exact bytesAt_remove
  · next empty =>
    rw [Option.not_isSome_iff_eq_none] at empty
    split
    · next same => rw [same, empty]
    · rfl

end FileTree

end CrystalModel
