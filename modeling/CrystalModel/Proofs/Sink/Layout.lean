import CrystalModel.Proofs.Sink.FileTree
import CrystalModel.Proofs.Sink.Path
import Mathlib.Data.List.Induction
import Mathlib.Data.Set.Defs

/-! # Trees with room for some files

Where every node lies in a directory, and no file may lie on the way to another, every file can be
written to its place and moved to the place of another. -/
namespace CrystalModel.FileTree

open Binary (Bytes)
open FilePath (Plain)

variable {t t' : FileTree} {here place path dir source target : FilePath} {name : String}
  {bytes : Bytes} {places : Set FilePath}

/-! ## Nodes in directories -/

/-- Every node lies in a directory. -/
def Closed (t : FileTree) : Prop :=
  ∀ place name, t.node? (place ++ [name]) ≠ none → t.isDirectory place = true

theorem isDirectory_of_above_append (h : (place ++ [name]).all (· == "..") = true) :
    t.isDirectory place = true := by
  rw [List.all_append, Bool.and_eq_true] at h
  exact isDirectory_of_above h.1

theorem Closed.empty : Closed empty := by
  intro place name there
  by_cases above : (place ++ [name]).all (· == "..") = true
  · exact isDirectory_of_above_append above
  · rw [node?, if_neg above] at there
    exact absurd rfl there

theorem Closed.isDirectory_of_prefix (closed : t.Closed) (there : t.isDirectory dir = true)
    (h : place <+: dir) : t.isDirectory place = true := by
  obtain ⟨back, rfl⟩ := h
  induction back using List.reverseRecOn with
  | nil => rwa [List.append_nil] at there
  | append_singleton back name ih =>
    rw [← List.append_assoc] at there
    exact ih (closed _ name (by rw [isDirectory_iff.mp there]; nofun))

theorem ne_nil_of_not_isDirectory (h : t.isDirectory place = false) : place ≠ [] := by
  rintro rfl
  rw [isDirectory_of_above rfl] at h
  cases h

theorem Closed.directory_of_bytesAt (closed : t.Closed) (file : t.bytesAt place = some bytes) :
    ∃ dir name, place = dir ++ [name] ∧ t.isDirectory dir = true := by
  have proper := ne_nil_of_not_isDirectory (isDirectory_of_bytesAt file)
  obtain ⟨dir, name, rfl⟩ := (List.eq_nil_or_concat' place).resolve_left proper
  exact ⟨dir, name, rfl, closed dir name (by rw [bytesAt_eq_some_iff.mp file]; nofun)⟩

theorem Closed.put {node : FileNode} (closed : t.Closed) (there : t.isDirectory dir = true)
    (free : t.isDirectory (dir ++ [name]) = false ∨ node = .directory) :
    (t.put (dir ++ [name]) node).Closed := by
  intro place last hnode
  rw [node?_put free] at hnode
  split at hnode
  · next same => exact put_keeps free _ ((List.append_inj' same rfl).1 ▸ there)
  · exact put_keeps free _ (closed place last hnode)

theorem Closed.filter (closed : t.Closed) (keep : FilePath → Bool)
    (up : ∀ place name, t.isDirectory place = true → keep (place ++ [name]) = true →
      keep place = true) : Closed (t.filter fun entry => keep entry.1) := by
  intro place name there
  rw [node?_filter] at there
  split at there
  · next kept =>
    have dir := closed place name there
    rcases Bool.or_eq_true _ _ ▸ kept with kept | above
    · rw [isDirectory_filter keep fun dir => up place name dir kept, dir]
    · exact isDirectory_of_above_append above
  · exact absurd rfl there

theorem Closed.remove (closed : t.Closed) (free : t.isDirectory place = false) :
    (t.remove place).Closed := by
  refine closed.filter (· != place) fun q _ dir _ => bne_iff_ne.mpr fun same => ?_
  rw [same, free] at dir
  cases dir

theorem Closed.removeDirectory (closed : t.Closed) : (t.removeDirectory place).Closed := by
  rw [FileTree.removeDirectory]
  split
  · refine closed.filter (fun q => !place.isPrefixOf q) fun q name _ outside => ?_
    rw [Bool.not_eq_true', ← Bool.not_eq_true, List.isPrefixOf_iff_prefix] at outside ⊢
    exact fun inside => outside (inside.trans (List.prefix_append _ _))
  · exact closed

/-! ## The way down -/

theorem walk_descends (down : path.Descends)
    (dirs : ∀ front back, path = front ++ back → back ≠ [] →
      t.isDirectory (here ++ front) = true) : t.walk here path = some (here ++ path) := by
  induction path generalizing here with
  | nil => rw [walk, List.append_nil]
  | cons name rest ih =>
    obtain ⟨⟨moves, notUp, fits⟩, down⟩ := FilePath.Descends.cons_iff.mp down
    have dir : t.isDirectory here = true := by
      simpa using dirs [] (name :: rest) rfl (List.cons_ne_nil name rest)
    have next : t.walk (here ++ [name]) rest = some (here ++ [name] ++ rest) :=
      ih down fun front back split below => by
        simpa using dirs (name :: front) back (by rw [split, List.cons_append]) below
    rw [walk, dir, moves, fits]
    simpa [notUp] using next

theorem eq_of_walk (down : path.Descends) (found : t.walk here path = some place) :
    place = here ++ path := by
  induction path generalizing here with
  | nil => rw [← Option.some.inj found, List.append_nil]
  | cons name rest ih =>
    obtain ⟨⟨moves, notUp, fits⟩, down⟩ := FilePath.Descends.cons_iff.mp down
    rw [walk, moves, fits] at found
    by_cases dir : t.isDirectory here = true
    · have same : place = here ++ [name] ++ rest := ih down (by simpa [dir, notUp] using found)
      rw [same, List.append_assoc, List.singleton_append]
    · simp [dir] at found

theorem Closed.locate [RootDirectory] (closed : t.Closed) (plain : Plain (dir ++ [name]))
    (there : t.isDirectory dir = true) :
    t.locate (dir ++ [name]) = some (dir ++ [name]) := by
  rw [FileTree.locate, if_pos plain.usable]
  refine walk_descends plain.descends fun front back split below => ?_
  have before : front <+: dir := by
    obtain ⟨back, last, rfl⟩ := (List.eq_nil_or_concat' back).resolve_left below
    rw [← List.append_assoc] at split
    exact ⟨back, (List.append_inj' split rfl).1.symm⟩
  exact closed.isDirectory_of_prefix there before

theorem eq_of_locate [RootDirectory] (plain : path.Plain) (found : t.locate path = some place) :
    place = path := by
  rw [FileTree.locate, if_pos plain.usable] at found
  exact eq_of_walk plain.descends found

theorem file?_eq_none [RootDirectory] (plain : path.Plain) (h : t.bytesAt path = none) :
    t.file? path = none := by
  cases found : t.locate path with
  | none => rw [file?_eq, found]; rfl
  | some place => rw [file?_eq, found, Option.bind_some, eq_of_locate plain found, h]

/-! ## Making directories -/

/-- The places that a path of names passes on its way from `here`. -/
def Passes (here : FilePath) (names : List String) (place : FilePath) : Prop :=
  ∃ front, front <+: names ∧ place = here ++ front

theorem passes_start (here : FilePath) (names : List String) : Passes here names here :=
  ⟨[], List.nil_prefix, (List.append_nil here).symm⟩

theorem passes_nil_iff : Passes here [] place ↔ place = here := by
  simp [Passes]

theorem passes_cons_iff {names : List String} : Passes here (name :: names) place ↔
    place = here ∨ Passes (here ++ [name]) names place := by
  constructor
  · rintro ⟨front, before, rfl⟩
    rcases List.prefix_cons_iff.mp before with rfl | ⟨front, rfl, further⟩
    · exact .inl (List.append_nil here)
    · exact .inr ⟨front, further, by rw [List.append_assoc, List.singleton_append]⟩
  · rintro (rfl | ⟨front, before, rfl⟩)
    · exact passes_start place (name :: names)
    · exact ⟨name :: front, (List.prefix_cons_inj name).mpr before,
        by rw [List.append_assoc, List.singleton_append]⟩

/-- Where no file is in the way, all directories of a path are made, and no others. -/
theorem Closed.pave {names : List String} (closed : t.Closed) (down : FilePath.Descends names)
    (there : t.isDirectory here = true)
    (free : ∀ place, Passes here names place → t.bytesAt place = none) :
    (t.pave here names).1 = true ∧ (t.pave here names).2.Closed ∧
      ∀ place, (t.pave here names).2.isDirectory place = true ↔
        t.isDirectory place = true ∨ Passes here names place := by
  induction names generalizing t here with
  | nil =>
    refine ⟨rfl, closed, fun place => ⟨.inl, ?_⟩⟩
    rintro (dir | passed)
    · exact dir
    · exact passes_nil_iff.mp passed ▸ there
  | cons name rest ih =>
    obtain ⟨⟨moves, notUp, fits⟩, down⟩ := FilePath.Descends.cons_iff.mp down
    have noPoint : "." ∉ rest := fun point => absurd (down "." point).1 (by decide)
    have free' : ∀ place, Passes (here ++ [name]) rest place → t.bytesAt place = none :=
      fun place passed => free place (passes_cons_iff.mpr (.inr passed))
    have nothing : t.bytesAt (here ++ [name]) = none := free' _ (passes_start _ rest)
    rw [FileTree.pave, moves]
    simp only [Bool.false_eq_true, if_false, beq_iff_eq, notUp]
    split
    · next found =>
      obtain ⟨complete, closed, dirs⟩ := ih closed down (isDirectory_iff.mpr found) free'
      refine ⟨complete, closed, fun place => ?_⟩
      rw [dirs, passes_cons_iff]
      constructor
      · exact fun h => h.imp_right .inr
      · rintro (dir | rfl | beyond)
        · exact .inl dir
        · exact .inl there
        · exact .inr beyond
    · next found => rw [bytesAt_eq_some_iff.mpr found] at nothing; cases nothing
    · next absent =>
      have refused : (!FilePath.isName name || rest.contains "." && rest.all FilePath.stays) =
          false := by simp [fits, noPoint]
      rw [refused]
      simp only [Bool.false_eq_true, if_false]
      have made : (t.put (here ++ [name]) .directory).Closed := closed.put there (.inr rfl)
      obtain ⟨complete, closed, dirs⟩ := ih made down
        (isDirectory_put_directory.mpr (.inl rfl)) fun place passed => by
          rw [bytesAt_put_directory nothing]
          exact free' place passed
      refine ⟨complete, closed, fun place => ?_⟩
      rw [dirs, passes_cons_iff, isDirectory_put_directory]
      constructor
      · rintro ((rfl | dir) | beyond)
        · exact .inr (.inr (passes_start _ rest))
        · exact .inl dir
        · exact .inr (.inr beyond)
      · rintro (dir | rfl | beyond)
        · exact .inl (.inr dir)
        · exact .inl (.inr there)
        · exact .inr beyond

/-! ## Files at some places -/

/-- Plain places, none of which lies below another. -/
structure Apart [RootDirectory] (places : Set FilePath) : Prop where
  plain : ∀ place ∈ places, place.Plain
  apart : ∀ p ∈ places, ∀ q ∈ places, p <+: q → p = q

/-- All files lie at the given places, and no directory is in their way. -/
structure Fits (places : Set FilePath) (t : FileTree) : Prop where
  closed : t.Closed
  free : ∀ place ∈ places, t.isDirectory place = false
  known : ∀ place bytes, t.bytesAt place = some bytes → place ∈ places

theorem Fits.empty [RootDirectory] (apart : Apart places) (proper : [] ∉ places) :
    Fits places empty where
  closed := .empty
  free place h := by
    cases place with
    | nil => exact absurd h proper
    | cons name rest =>
      have notUp := ((apart.plain _ h).descends name (.head _)).2.1
      simp [isDirectory, node?, notUp, FileTree.empty]
  known place bytes h := by
    rw [bytesAt_empty] at h
    cases h

theorem Fits.in_directory (fits : Fits places t) (h : place ∈ places) :
    ∃ dir name, place = dir ++ [name] :=
  (List.eq_nil_or_concat' place).resolve_left (ne_nil_of_not_isDirectory (fits.free place h))

theorem Apart.not_passes [RootDirectory] (apart : Apart places) (h : dir ++ [name] ∈ places)
    (hp : place ∈ places) : ¬ Passes [] dir place := by
  rintro ⟨front, before, rfl⟩
  have same := apart.apart _ hp _ h (before.trans (List.prefix_append dir [name]))
  have shorter := before.length_le
  rw [same, List.length_append, List.length_singleton] at shorter
  omega

theorem Fits.createDirectories [RootDirectory] (fits : Fits places t) (apart : Apart places)
    (h : dir ++ [name] ∈ places) :
    ∃ made, t.createDirectories (dir ++ [name]).parent = (true, made) ∧ Fits places made ∧
      made.isDirectory dir = true ∧ ∀ q, made.bytesAt q = t.bytesAt q := by
  have plain := apart.plain _ h
  have above : Plain dir := plain.sublist (List.sublist_append_left dir [name])
  have files := (t.pave_keeps [] dir).2
  obtain ⟨complete, closed, dirs⟩ := fits.closed.pave above.descends
    (isDirectory_of_above (rfl : ([] : FilePath).all (· == "..") = true)) fun place passed => by
      cases file : t.bytesAt place with
      | none => rfl
      | some bytes => exact absurd passed (apart.not_passes h (fits.known place bytes file))
  refine ⟨(t.pave [] dir).2, ?_, ⟨closed, fun place hp => ?_, fun place bytes file => ?_⟩, ?_,
    files⟩
  · rw [plain.parent_eq, List.dropLast_concat, FileTree.createDirectories, if_pos above.usable,
      ← complete]
  · rw [← Bool.not_eq_true, dirs, fits.free place hp]
    simpa using apart.not_passes h hp
  · exact fits.known place bytes (files place ▸ file)
  · exact (dirs dir).mpr (.inr ⟨dir, List.prefix_rfl, rfl⟩)

theorem Fits.put (fits : Fits places t) (there : t.isDirectory dir = true)
    (h : dir ++ [name] ∈ places) : Fits places (t.put (dir ++ [name]) (.file bytes)) where
  closed := fits.closed.put there (.inl (fits.free _ h))
  free place hp := (isDirectory_put_file (fits.free _ h)).trans (fits.free place hp)
  known place bytes' file := by
    rw [bytesAt_put_file (fits.free _ h)] at file
    split at file
    · next same => exact same ▸ h
    · exact fits.known place bytes' file

theorem Fits.remove (fits : Fits places t) (h : place ∈ places) : Fits places (t.remove place) where
  closed := fits.closed.remove (fits.free place h)
  free q hq := (isDirectory_remove (fits.free place h)).trans (fits.free q hq)
  known q bytes file := by
    rw [bytesAt_remove] at file
    split at file
    · cases file
    · exact fits.known q bytes file

theorem isDirectory_of_removeDirectory
    (h : (t.removeDirectory dir).isDirectory place = true) : t.isDirectory place = true := by
  rw [FileTree.removeDirectory] at h
  split at h
  · rw [isDirectory_iff, node?_filter (fun q => !dir.isPrefixOf q)] at h
    split at h
    · exact isDirectory_iff.mpr h
    · cases h
  · exact h

theorem Fits.bytesAt_removeDirectory (fits : Fits places t) (h : dir ∉ places) :
    (t.removeDirectory dir).bytesAt place = if dir <+: place then none else t.bytesAt place := by
  rw [FileTree.removeDirectory]
  split
  · rw [bytesAt_filter (fun q => !dir.isPrefixOf q)]
    simp only [Bool.not_eq_true', ← Bool.not_eq_true, List.isPrefixOf_iff_prefix, ite_not]
  · next missing =>
    split
    · next inside =>
      cases file : t.bytesAt place with
      | none => rfl
      | some bytes =>
        obtain ⟨parent, name, rfl, above⟩ := fits.closed.directory_of_bytesAt file
        rcases List.prefix_concat_iff.mp inside with rfl | higher
        · exact absurd (fits.known _ bytes file) h
        · exact absurd (fits.closed.isDirectory_of_prefix above higher) missing
    · rfl

theorem Fits.removeDirectory (fits : Fits places t) (h : dir ∉ places) :
    Fits places (t.removeDirectory dir) where
  closed := fits.closed.removeDirectory
  free place hp := by
    refine eq_false_of_ne_true fun there => ?_
    have before := isDirectory_of_removeDirectory there
    rw [fits.free place hp] at before
    cases before
  known place bytes file := by
    rw [fits.bytesAt_removeDirectory h] at file
    split at file
    · cases file
    · exact fits.known place bytes file

theorem Fits.write [RootDirectory] (fits : Fits places t) (apart : Apart places)
    (h : place ∈ places)
    (bytes : Bytes) : ∃ made t', t.createDirectories place.parent = (true, made) ∧
      made.write place bytes = some t' ∧ Fits places t' ∧
        ∀ q, t'.bytesAt q = if q = place then some bytes else t.bytesAt q := by
  obtain ⟨dir, name, rfl⟩ := fits.in_directory h
  obtain ⟨made, paved, fits, there, files⟩ := fits.createDirectories apart h
  have found := fits.closed.locate (apart.plain _ h) there
  have free := fits.free _ h
  refine ⟨made, made.put (dir ++ [name]) (.file bytes), paved, ?_, fits.put there h, fun q => ?_⟩
  · rw [FileTree.write, found]
    exact putFile_eq_some_iff.mpr ⟨free, rfl⟩
  · rw [bytesAt_put_file free, files]

theorem Fits.rename [RootDirectory] (fits : Fits places t) (apart : Apart places)
    (hs : source ∈ places)
    (ht : target ∈ places) : ∃ made, t.createDirectories target.parent = (true, made) ∧
      (t.bytesAt source = none → made.rename source target = none) ∧
      ∀ bytes, t.bytesAt source = some bytes → ∃ t', made.rename source target = some t' ∧
        Fits places t' ∧ ∀ q, t'.bytesAt q =
          if q = target then some bytes else if q = source then none else t.bytesAt q := by
  obtain ⟨dir, name, rfl⟩ := fits.in_directory ht
  obtain ⟨made, paved, fits, there, files⟩ := fits.createDirectories apart ht
  refine ⟨made, paved, fun missing => ?_, fun bytes file => ?_⟩
  · have missing := file?_eq_none (apart.plain _ hs) ((files source).trans missing)
    rw [FileTree.rename, missing]
    rfl
  · have file := (files source).trans file
    obtain ⟨sourceDir, sourceName, rfl, sourceThere⟩ := fits.closed.directory_of_bytesAt file
    have free := fits.free _ ht
    refine ⟨_, rename_eq_some_iff.mpr ⟨_, _, bytes,
      fits.closed.locate (apart.plain _ hs) sourceThere, file,
      fits.closed.locate (apart.plain _ ht) there, free, rfl⟩, ?_, fun q => ?_⟩
    · exact (fits.remove hs).put ((isDirectory_remove (fits.free _ hs)).trans there) ht
    · rw [bytesAt_moved file free, files]

end CrystalModel.FileTree
