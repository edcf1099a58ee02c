import CrystalModel.Proofs.Sink.FileTree
import CrystalModel.Proofs.Sink.Path

/-! # Failed commits

A commit that fails removes the files that it has put into place. It does not put back what they
have replaced: lost are the files of earlier commits under the keys that were published before the
failure, and nothing else. -/
namespace CrystalModel.DirectorySink

open Binary (Bytes)
open FileTree (Keeps)

section Commit

variable [RootDirectory]

variable {s : DirectorySink} {t t' : FileTree} {key : String} {done published : List String}
  {place : FilePath}

/-- Publishing the key touches the place: a file comes from there, or goes there. -/
def Touches (t : FileTree) (key : String) (place : FilePath) : Prop :=
  t.locate (stagedTarget key) = some place ∨ t.locate (target key) = some place

/-! ## One key -/

theorem publish_ok (h : publish t key = (.ok (), t')) : Keeps t t' ∧ ∃ old new,
    t'.locate (stagedTarget key) = some old ∧ t'.locate (target key) = some new ∧ ∀ q,
      t'.bytesAt q = if q = new then t.bytesAt old else if q = old then none else t.bytesAt q := by
  rw [publish] at h
  obtain ⟨keeps, files⟩ := t.createDirectories_keeps (target key).parent
  generalize t.createDirectories (target key).parent = made at h keeps files
  obtain ⟨complete, paved⟩ := made
  cases complete with
  | false => cases h
  | true =>
    dsimp only at h keeps files
    split at h
    · cases h
    · next moved renamed =>
      obtain ⟨-, rfl⟩ := Prod.mk.inj h
      obtain ⟨old, new, bytes, source, file, goal, free, rfl⟩ :=
        FileTree.rename_eq_some_iff.mp renamed
      have same : Keeps paved ((paved.remove old).put new (.file bytes)) := fun q dir =>
        (FileTree.isDirectory_moved file free).trans dir
      refine ⟨keeps.trans same, old, new, same.locate source, same.locate goal, fun q => ?_⟩
      rw [FileTree.bytesAt_moved file free, ← file, files, files]

theorem publish_error {failure : SinkFailure} (h : publish t key = (.error failure, t')) :
    failure = ⟨key⟩ ∧ Keeps t t' ∧ ∀ q, t'.bytesAt q = t.bytesAt q := by
  rw [publish] at h
  have paves := t.createDirectories_keeps (target key).parent
  generalize t.createDirectories (target key).parent = made at h paves
  obtain ⟨complete, paved⟩ := made
  cases complete with
  | false =>
    obtain ⟨failed, rfl⟩ := Prod.mk.inj h
    exact ⟨(Except.error.inj failed).symm, paves⟩
  | true =>
    dsimp only at h
    split at h
    · obtain ⟨failed, rfl⟩ := Prod.mk.inj h
      exact ⟨(Except.error.inj failed).symm, paves⟩
    · cases h

/-! ## All keys -/

/-- Files have moved from the staging directory to the places of their keys. -/
structure Published (t t' : FileTree) (done : List String) : Prop where
  keeps : Keeps t t'
  located : ∀ key ∈ done, ∃ place, t'.locate (target key) = some place
  left : ∀ key ∈ done, ∀ place, t'.locate (stagedTarget key) = some place →
    t'.bytesAt place = none ∨ ∃ k ∈ done, t'.locate (target k) = some place
  untouched : ∀ place, (∀ key ∈ done, ¬ Touches t' key place) → t'.bytesAt place = t.bytesAt place

theorem Published.cons {t₁ : FileTree} {rest : List String}
    (first : publish t key = (.ok (), t₁)) (others : Published t₁ t' rest) :
    Published t t' (key :: rest) := by
  obtain ⟨keeps, old, new, source, goal, files⟩ := publish_ok first
  have source' := others.keeps.locate source
  have goal' := others.keeps.locate goal
  refine ⟨keeps.trans others.keeps, ?_, ?_, ?_⟩
  · rintro k (_ | ⟨_, hk⟩)
    · exact ⟨new, goal'⟩
    · exact others.located k hk
  · rintro k (_ | ⟨_, hk⟩) place found
    · obtain rfl : old = place := Option.some.inj (source'.symm.trans found)
      by_cases again : ∃ k ∈ rest, Touches t' k old
      · obtain ⟨k, hk, comes | goes⟩ := again
        · exact (others.left k hk old comes).imp_right fun ⟨k', hk', at_place⟩ =>
            ⟨k', .tail _ hk', at_place⟩
        · exact .inr ⟨k, .tail _ hk, goes⟩
      · by_cases same : old = new
        · exact .inr ⟨key, .head _, same ▸ goal'⟩
        · have kept := others.untouched old fun k hk touches => again ⟨k, hk, touches⟩
          exact .inl (by rw [kept, files, if_neg same, if_pos rfl])
    · exact (others.left k hk place found).imp_right fun ⟨k', hk', at_place⟩ =>
        ⟨k', .tail _ hk', at_place⟩
  · intro place apart
    have notOld : place ≠ old := fun same => apart key (.head _) (.inl (same ▸ source'))
    have notNew : place ≠ new := fun same => apart key (.head _) (.inr (same ▸ goal'))
    rw [others.untouched place fun k hk => apart k (.tail _ hk), files, if_neg notNew,
      if_neg notOld]

theorem publishAll_ok (h : publishAll t published done = (.ok (), t')) : Published t t' done := by
  induction done generalizing t published with
  | nil =>
    obtain ⟨-, rfl⟩ := Prod.mk.inj h
    exact ⟨.refl _, by simp, by simp, fun _ _ => rfl⟩
  | cons key rest ih =>
    rw [publishAll] at h
    split at h
    · next t₁ first => exact .cons first (ih h)
    · cases h

theorem publishAll_append (h : publishAll t published done = (.ok (), t')) (rest : List String) :
    publishAll t published (done ++ rest) = publishAll t' (published ++ done) rest := by
  induction done generalizing t published with
  | nil =>
    obtain ⟨-, rfl⟩ := Prod.mk.inj h
    rw [List.append_nil, List.nil_append]
  | cons key front ih =>
    rw [publishAll] at h
    rw [List.cons_append, publishAll]
    split at h
    · next t₁ first => rw [ih h, List.append_assoc, List.singleton_append]
    · cases h

theorem removeAll (located : ∀ key ∈ done, ∃ place, t.locate (target key) = some place) :
    let t' := done.foldl (fun files key => files.removeFile (target key)) t
    (∀ key ∈ done, ∀ place, t.locate (target key) = some place → t'.bytesAt place = none) ∧
      ∀ place, (∀ key ∈ done, t.locate (target key) ≠ some place) →
        t'.bytesAt place = t.bytesAt place := by
  induction done generalizing t with
  | nil => exact ⟨by simp, fun _ _ => rfl⟩
  | cons key rest ih =>
    obtain ⟨gone, goal⟩ := located key (.head _)
    have keeps := t.removeFile_keeps (target key)
    have same : ∀ k ∈ rest, ∀ {place}, (t.removeFile (target key)).locate (target k) = some place ↔
        t.locate (target k) = some place := fun k hk =>
      keeps.locate_iff (located k (.tail _ hk))
    obtain ⟨removed, kept⟩ := ih (t := t.removeFile (target key)) fun k hk =>
      (located k (.tail _ hk)).imp fun _ found => keeps.locate found
    refine ⟨?_, fun place apart => ?_⟩
    · rintro k (_ | ⟨_, hk⟩) place found
      · obtain rfl : gone = place := Option.some.inj (goal.symm.trans found)
        by_cases again : ∃ k ∈ rest, (t.removeFile (target key)).locate (target k) = some gone
        · obtain ⟨k, hk, found⟩ := again
          exact removed k hk gone found
        · have kept := kept gone fun k hk found => again ⟨k, hk, found⟩
          exact kept.trans (by rw [FileTree.bytesAt_removeFile goal, if_pos rfl])
      · exact removed k hk place (keeps.locate found)
    · have differ : place ≠ gone := fun same => apart key (.head _) (same ▸ goal)
      have kept := kept place fun k hk found => apart k (.tail _ hk) ((same k hk).mp found)
      exact kept.trans (by rw [FileTree.bytesAt_removeFile goal, if_neg differ])

/-! ## The commit -/

/-- How far a failing commit gets: the keys before `key` are published, which leads to the tree
`t`, and `key` is not. -/
structure FailsAt (s : DirectorySink) (done : List String) (key : String) (t : FileTree) :
    Prop where
  staged : ∃ rest, s.staged = done ++ key :: rest
  published : publishAll s.files [] done = (.ok (), t)
  failed : (publish t key).1 ≠ .ok ()

theorem FailsAt.commit_eq (h : FailsAt s done key t) : ∃ t', commit s = (.error ⟨key⟩,
    dropStaged ⟨done.foldl (fun files key => files.removeFile (target key)) t', s.staged⟩) ∧
      Keeps t t' ∧ ∀ q, t'.bytesAt q = t.bytesAt q := by
  obtain ⟨⟨rest, staged⟩, done_ok, failed⟩ := h
  cases fails : publish t key with
  | mk outcome t' =>
    cases outcome with
    | ok => rw [fails] at failed; exact absurd rfl failed
    | error failure =>
      obtain ⟨rfl, kept⟩ := publish_error fails
      refine ⟨t', ?_, kept⟩
      rw [commit, staged, publishAll_append done_ok, publishAll, fails]
      rfl

/-- The rollback removes the files of the published keys from the tree that they led to. -/
theorem FailsAt.bytesAt_commit (h : FailsAt s done key t) (outside : Outside place) :
    (∀ k ∈ done, t.locate (target k) = some place → (commit s).2.files.bytesAt place = none) ∧
      ((∀ k ∈ done, t.locate (target k) ≠ some place) →
        (commit s).2.files.bytesAt place = t.bytesAt place) := by
  have moved := publishAll_ok h.published
  obtain ⟨t', result, keeps, files⟩ := h.commit_eq
  have same : ∀ k ∈ done, t'.locate (target k) = some place ↔ t.locate (target k) = some place :=
    fun k hk => keeps.locate_iff (moved.located k hk)
  obtain ⟨removed, kept⟩ := removeAll (t := t') fun k hk =>
    (moved.located k hk).imp fun _ found => keeps.locate found
  have after : (commit s).2.files.bytesAt place =
      (done.foldl (fun files key => files.removeFile (target key)) t').bytesAt place := by
    rw [result]
    exact FileTree.bytesAt_removeDirectory_of_outside outside
  rw [after]
  refine ⟨fun k hk found => removed k hk place ((same k hk).mpr found), fun apart => ?_⟩
  rw [kept place fun k hk found => apart k hk ((same k hk).mp found), files]

theorem FailsAt.lost (h : FailsAt s done key t) {k : String} (hk : k ∈ done)
    (outside : Outside place) (touches : Touches t k place) :
    (commit s).2.files.bytesAt place = none := by
  obtain ⟨removed, kept⟩ := h.bytesAt_commit outside
  by_cases goal : ∃ k ∈ done, t.locate (target k) = some place
  · obtain ⟨k, hk, found⟩ := goal
    exact removed k hk found
  · rw [kept fun k hk found => goal ⟨k, hk, found⟩]
    rcases touches with comes | goes
    · exact ((publishAll_ok h.published).left k hk place comes).resolve_right goal
    · exact absurd ⟨k, hk, goes⟩ goal

theorem FailsAt.kept (h : FailsAt s done key t) (outside : Outside place)
    (apart : ∀ k ∈ done, ¬ Touches t k place) :
    (commit s).2.files.bytesAt place = s.files.bytesAt place := by
  rw [(h.bytesAt_commit outside).2 fun k hk found => apart k hk (.inr found),
    (publishAll_ok h.published).untouched place apart]

end Commit

/-- A second version of `a` is staged and a first one of `b`, which a directory is in the way of. -/
def blocked : DirectorySink where
  files := [(["b.bin"], .directory), ([".staging", "b.bin"], .file [5, 6]),
    ([".staging", "a.bin"], .file [3, 4]), ([".staging"], .directory), (["a.bin"], .file [1, 2])]
  staged := ["a", "b"]

end CrystalModel.DirectorySink
