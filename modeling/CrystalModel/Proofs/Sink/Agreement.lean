import CrystalModel.Proofs.Binary.Catalog
import CrystalModel.Proofs.Sink.SideBySide
import CrystalModel.Sink.Memory

/-! # Directories and memory

The same calls on a directory and on a sink in memory end alike and leave the same blobs, as long
as no commit finds a key that was stored twice. The second of two stores replaces the first in the
staging directory, but both keys are listed for the commit, and only one of them can be moved. -/
namespace CrystalModel

open Binary (Bytes)

/-! ## Calls -/

inductive SinkCall where
  | store (key : String) (header payload : Bytes)
  | commit
  | abort

namespace SinkCall

def run {σ : Type} [Sink σ] (s : σ) : SinkCall → SinkStep σ
  | .store key header payload => Sink.store s key header payload
  | .commit => Sink.commit s
  | .abort => (.ok (), Sink.abort s)

def keys (calls : List SinkCall) : List String :=
  calls.filterMap fun
    | .store key _ _ => some key
    | _ => none

/-- Every commit finds each key stored once since the commit or abort before it. -/
def StoredOnce (pending : List String) : List SinkCall → Prop
  | [] => True
  | .store key _ _ :: rest => StoredOnce (pending ++ [key]) rest
  | .commit :: rest => pending.Nodup ∧ StoredOnce [] rest
  | .abort :: rest => StoredOnce [] rest

end SinkCall

namespace DirectorySink

open FileTree (Fits)

/-- Outside of the staging directory lie the committed entries, each in the file of its key. -/
def Shows (d : DirectorySink) (m : MemorySink) : Prop :=
  ∀ place, Outside place → ∀ bytes, d.files.bytesAt place = some bytes ↔
    ∃ key header payload, m.entries.get? key = some (header, payload) ∧
      place = target key ∧ bytes = header ++ payload

/-- Each call succeeds on both sinks or on none, and both show the same blobs after it. -/
def Agree [RootDirectory] (d : DirectorySink) (m : MemorySink) : List SinkCall → Prop
  | [] => True
  | call :: rest =>
    (call.run d).1.isOk = (call.run m).1.isOk ∧ Shows (call.run d).2 (call.run m).2 ∧
      Agree (call.run d).2 (call.run m).2 rest

/-! ## States that match -/

def contents (c : Catalog (Bytes × Bytes)) (key : String) : Option Bytes :=
  (c.get? key).map fun (header, payload) => header ++ payload

section contents

variable {c newer : Catalog (Bytes × Bytes)} {key k : String} {bytes header payload : Bytes}

theorem contents_eq_some_iff : contents c key = some bytes ↔
    ∃ header payload, c.get? key = some (header, payload) ∧ bytes = header ++ payload := by
  rw [contents, Option.map_eq_some_iff]
  constructor
  · rintro ⟨⟨header, payload⟩, entry, rfl⟩
    exact ⟨header, payload, entry, rfl⟩
  · rintro ⟨header, payload, entry, rfl⟩
    exact ⟨(header, payload), entry, rfl⟩

theorem contents_eq_none_iff : contents c key = none ↔ key ∉ c.keys := by
  rw [contents, Option.map_eq_none_iff, Catalog.get?_eq_none_iff]

theorem mem_keys_iff : key ∈ c.keys ↔ ∃ bytes, contents c key = some bytes := by
  rw [← Option.ne_none_iff_exists', ne_eq, contents_eq_none_iff, not_not]

theorem contents_insert : contents (c.insert key (header, payload)) k =
    if k = key then some (header ++ payload) else contents c k := by
  rw [contents, Catalog.get?_insert]
  split <;> rfl

theorem contents_merge (h : newer.Ordered) :
    contents (c.merge newer) k = if k ∈ newer.keys then contents newer k else contents c k := by
  rw [contents, Catalog.get?_merge h]
  split
  · next new =>
    obtain ⟨bytes, file⟩ := mem_keys_iff.mp new
    obtain ⟨header, payload, entry, rfl⟩ := contents_eq_some_iff.mp file
    rw [file, entry]
    rfl
  · next old => rw [Catalog.get?_eq_none_iff.mpr old, Option.none_or, contents]

end contents

section Matching

variable [RootDirectory]

/-- The directory holds the committed entries in their files and the pending ones in their staged
files, and lists the pending keys. -/
structure Matches (keys : List String) (d : DirectorySink) (m : MemorySink) : Prop where
  fits : Fits (places keys) d.files
  committed : ∀ key ∈ keys, d.files.bytesAt (target key) = contents m.entries key
  staged : ∀ key ∈ keys, d.files.bytesAt (stagedTarget key) = contents m.pending key
  listed : ∀ key, key ∈ d.staged ↔ key ∈ m.pending.keys
  entries_known : ∀ key ∈ m.entries.keys, key ∈ keys
  pending_known : ∀ key ∈ m.pending.keys, key ∈ keys
  ordered : m.pending.Ordered

variable {keys : List String} {d : DirectorySink} {m : MemorySink} {t : FileTree} {key : String}

omit [RootDirectory] in
theorem Matches.shows (h : Matches keys d m) : Shows d m := by
  intro place outside bytes
  constructor
  · intro file
    obtain ⟨key, hkey, rfl | rfl⟩ := h.fits.known place bytes file
    · rw [h.committed key hkey, contents_eq_some_iff] at file
      obtain ⟨header, payload, entry, rfl⟩ := file
      exact ⟨key, header, payload, entry, rfl, rfl⟩
    · exact absurd outside (not_outside_stagedTarget key)
  · rintro ⟨key, header, payload, entry, rfl, rfl⟩
    have file : contents m.entries key = some (header ++ payload) :=
      contents_eq_some_iff.mpr ⟨header, payload, entry, rfl⟩
    rw [h.committed key (h.entries_known key (mem_keys_iff.mpr ⟨_, file⟩)), file]

theorem Matches.initial (side : SideBySide keys) : Matches keys (.ofTree .empty) .empty where
  fits := .empty side.places_apart SideBySide.nil_notMem
  committed _ _ := FileTree.bytesAt_empty
  staged _ _ := FileTree.bytesAt_empty
  listed _ := .rfl
  entries_known := nofun
  pending_known := nofun
  ordered := .empty

theorem Matches.store (side : SideBySide keys) (h : Matches keys d m) (hkey : key ∈ keys)
    (header payload : Bytes) : ∃ files,
      d.store key header payload = (.ok (), ⟨files, d.staged ++ [key]⟩) ∧
        Matches keys ⟨files, d.staged ++ [key]⟩ (m.store key header payload) := by
  obtain ⟨made, files, paved, written, fits, now⟩ :=
    h.fits.write side.places_apart (stagedTarget_mem_places hkey) (header ++ payload)
  refine ⟨files, by rw [DirectorySink.store, paved]; simp only [written], ?_⟩
  exact {
    fits
    committed k hk := by
      rw [now, if_neg (side.target_ne_stagedTarget hk key), h.committed k hk]
      rfl
    staged k hk := by
      rw [now, MemorySink.store, contents_insert, h.staged k hk]
      simp only [stagedTarget_inj_iff]
    listed k := by
      rw [MemorySink.store, Catalog.mem_keys_insert, ← h.listed, List.mem_append,
        List.mem_singleton, or_comm]
    entries_known := h.entries_known
    pending_known k hk := by
      rcases Catalog.mem_keys_insert.mp hk with rfl | hk
      · exact hkey
      · exact h.pending_known k hk
    ordered := h.ordered.insert }

theorem Matches.dropStaged {entries : Catalog (Bytes × Bytes)} (side : SideBySide keys)
    (fits : Fits (places keys) t)
    (committed : ∀ key ∈ keys, t.bytesAt (target key) = contents entries key)
    (known : ∀ key ∈ entries.keys, key ∈ keys) (staged : List String) :
    Matches keys (dropStaged ⟨t, staged⟩) ⟨entries, .empty⟩ where
  fits := fits.removeDirectory side.stagingArea_notMem
  committed key hkey :=
    (FileTree.bytesAt_removeDirectory_of_outside (side.outside key hkey)).trans
      (committed key hkey)
  staged key _ := by
    have inside : stagingArea <+: stagedTarget key := List.prefix_append _ _
    exact (fits.bytesAt_removeDirectory side.stagingArea_notMem).trans (if_pos inside)
  listed _ := .rfl
  entries_known := known
  pending_known := nofun
  ordered := .empty

theorem Matches.abort (side : SideBySide keys) (h : Matches keys d m) :
    Matches keys d.dropStaged m.abort :=
  .dropStaged side h.fits h.committed h.entries_known d.staged

theorem Matches.commit (side : SideBySide keys) (h : Matches keys d m) (once : d.staged.Nodup) :
    (commit d).1 = .ok () ∧ Matches keys (commit d).2 m.commit := by
  have known : ∀ key ∈ d.staged, key ∈ keys := fun key hkey =>
    h.pending_known key ((h.listed key).mp hkey)
  obtain ⟨t, ok, fits, goals⟩ := publishAll_once [] side h.fits known once
    fun key hkey => by
      rw [h.staged key (known key hkey)]
      exact mem_keys_iff.mp ((h.listed key).mp hkey)
  rw [DirectorySink.commit, ok]
  refine ⟨rfl, .dropStaged side fits (fun key hkey => ?_) (fun key hkey => ?_) d.staged⟩
  · rw [goals key hkey, contents_merge h.ordered, h.staged key hkey, h.committed key hkey]
    simp only [h.listed]
  · rcases Catalog.mem_keys_merge.mp hkey with hkey | hkey
    · exact h.entries_known key hkey
    · exact h.pending_known key hkey

theorem Matches.commit_fails (side : SideBySide keys) (h : Matches keys d m)
    (repeated : ¬ d.staged.Nodup) : (DirectorySink.commit d).1.isOk = false := by
  have fails := publishAll_repeated [] side h.fits
    (fun key hkey => h.pending_known key ((h.listed key).mp hkey)) repeated
  have outcome : (DirectorySink.commit d).1 = (publishAll d.files [] d.staged).1 := rfl
  rw [outcome]
  cases result : (publishAll d.files [] d.staged).1 with
  | error failure => rfl
  | ok => exact absurd result fails

/-- From states that match, sinks agree exactly as long as keys are stored once. -/
theorem Matches.agree_iff (side : SideBySide keys) {calls : List SinkCall}
    (known : ∀ key ∈ SinkCall.keys calls, key ∈ keys) (h : Matches keys d m) :
    Agree d m calls ↔ SinkCall.StoredOnce d.staged calls := by
  induction calls generalizing d m with
  | nil => exact .rfl
  | cons call rest ih =>
    cases call with
    | store key header payload =>
      obtain ⟨hkey, known⟩ := List.forall_mem_cons.mp known
      obtain ⟨files, stored, after⟩ := h.store side hkey header payload
      have run : SinkCall.run d (.store key header payload) =
          (.ok (), ⟨files, d.staged ++ [key]⟩) := stored
      rw [Agree, run, SinkCall.StoredOnce, ← ih known after]
      exact ⟨fun agree => agree.2.2, fun agree => ⟨rfl, after.shows, agree⟩⟩
    | commit =>
      have run : SinkCall.run d .commit = DirectorySink.commit d := rfl
      rw [Agree, run, SinkCall.StoredOnce]
      by_cases once : d.staged.Nodup
      · obtain ⟨ok, after⟩ := h.commit side once
        have later : Agree (DirectorySink.commit d).2 m.commit rest ↔
            SinkCall.StoredOnce [] rest := ih known after
        rw [ok, ← later]
        exact ⟨fun agree => ⟨once, agree.2.2⟩, fun agree => ⟨rfl, after.shows, agree.2⟩⟩
      · rw [h.commit_fails side once]
        exact ⟨fun agree => absurd agree.1 (by nofun), fun agree => absurd agree.1 once⟩
    | abort =>
      have after := h.abort side
      have later : Agree d.dropStaged m.abort rest ↔ SinkCall.StoredOnce [] rest := ih known after
      rw [Agree, SinkCall.StoredOnce, ← later]
      exact ⟨fun agree => agree.2.2, fun agree => ⟨rfl, after.shows, agree⟩⟩

/-- A directory and a sink in memory agree on a sequence of calls if and only if no commit in it
finds a key that was stored twice. -/
theorem sinks_agree_iff (calls : List SinkCall) (side : SideBySide (SinkCall.keys calls)) :
    Agree (.ofTree .empty) .empty calls ↔ SinkCall.StoredOnce [] calls :=
  (Matches.initial side).agree_iff side fun _ h => h

end Matching

/-- A blob is renewed after its commit, and then once more before the next one. -/
def renewals : List SinkCall :=
  [.store "sim0/a" [1] [2], .store "b" [] [3], .commit, .store "sim0/a" [4] [5],
    .store "sim0/a" [6] [7]]

theorem renewals_separate : SideBySide (SinkCall.keys renewals) ∧
    Agree (.ofTree .empty) .empty renewals ∧
      ¬ Agree (.ofTree .empty) .empty (renewals ++ [.commit]) := by
  have side : SideBySide ["sim0/a", "b", "sim0/a", "sim0/a"] := by
    have first : (stagedTarget "sim0/a").Plain := ⟨by decide, by decide +kernel⟩
    have second : (stagedTarget "b").Plain := ⟨by decide, by decide +kernel⟩
    exact ⟨by simp [first, second], by decide, by decide⟩
  refine ⟨side, (sinks_agree_iff renewals side).mpr ?_,
    (sinks_agree_iff (renewals ++ [SinkCall.commit]) side).not.mpr ?_⟩
  · simp [renewals, SinkCall.StoredOnce]
  · simp [renewals, SinkCall.StoredOnce]

end DirectorySink

end CrystalModel
