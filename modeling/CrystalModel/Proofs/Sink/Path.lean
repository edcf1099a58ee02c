import CrystalModel.Sink.Directory
import Mathlib.Data.List.Basic
import Mathlib.Data.List.TakeWhile

/-! # Plain paths

A path that only leads down ends at the place of the same names. Every key has a file of its own. -/
namespace CrystalModel

/-! ## Paths that can be followed -/

namespace FilePath

variable {path front : FilePath} {name : String}

def size : FilePath → Nat
  | [] => 0
  | name :: rest => name.utf8ByteSize + 1 + size rest

theorem size_intercalate (name : String) (path : FilePath) :
    ("/".intercalate (name :: path)).utf8ByteSize + 1 = size (name :: path) := by
  induction path generalizing name with
  | nil => rw [String.intercalate_singleton, size, size, Nat.add_zero]
  | cons next rest ih =>
    have slash : "/".utf8ByteSize = 1 := rfl
    rw [String.intercalate_cons_cons, String.utf8ByteSize_append, String.utf8ByteSize_append, slash,
      size, Nat.add_assoc, ih]

theorem size_le (h : front.Sublist path) : size front ≤ size path := by
  induction h with
  | slnil => exact Nat.le_refl _
  | cons name _ ih => rw [size]; omega
  | cons_cons name _ ih => rw [size, size]; omega

theorem size_intercalate_le (h : front.Sublist path) :
    ("/".intercalate front).utf8ByteSize ≤ ("/".intercalate path).utf8ByteSize := by
  cases front with
  | nil => simp
  | cons name front =>
    obtain ⟨first, rest, rfl⟩ :=
      List.exists_cons_of_ne_nil (List.ne_nil_of_mem (h.subset (.head _)))
    have sizes := size_le h
    rw [← size_intercalate, ← size_intercalate] at sizes
    exact Nat.le_of_succ_le_succ sizes

theorem isUsable_of_sublist [RootDirectory] (h : front.Sublist path)
    (usable : path.isUsable = true) : front.isUsable = true := by
  simp only [isUsable, Bool.and_eq_true, Bool.not_eq_true', List.any_eq_false,
    decide_eq_true_eq] at usable ⊢
  exact ⟨fun name hname => usable.1 name (h.subset hname),
    (Nat.add_le_add_left (size_intercalate_le h) _).trans usable.2⟩

/-- Every name leads one directory down. -/
def Descends (path : FilePath) : Prop :=
  ∀ name ∈ path, stays name = false ∧ name ≠ ".." ∧ isName name = true

instance : DecidablePred Descends := fun path => inferInstanceAs (Decidable (∀ name ∈ path, _))

theorem Descends.cons_iff : Descends (name :: path) ↔
    (stays name = false ∧ name ≠ ".." ∧ isName name = true) ∧ path.Descends := List.forall_mem_cons

/-- Where the directories of the path are there, it leads to the place of the same names. -/
structure Plain [RootDirectory] (path : FilePath) : Prop where
  descends : path.Descends
  usable : path.isUsable = true

theorem Plain.sublist [RootDirectory] (h : path.Plain) (part : front.Sublist path) :
    front.Plain where
  descends name hname := h.descends name (part.subset hname)
  usable := isUsable_of_sublist part h.usable

theorem Plain.parent_eq [RootDirectory] (h : path.Plain) : path.parent = path.dropLast := by
  have stays : ∀ name ∈ path.dropLast.reverse, ¬ FilePath.stays name = true := by
    intro name hname
    rw [(h.descends name (List.dropLast_subset path (List.mem_reverse.mp hname))).1]
    nofun
  rw [parent, List.dropWhile_eq_self_iff.mpr fun hl => stays _ (List.getElem_mem hl),
    List.reverse_reverse]

end FilePath

namespace DirectorySink

variable {a b : String}

theorem names_inj (h : names a = names b) : a = b := by
  have fields := List.map_injective_iff.mpr (fun _ _ => String.ofList_inj.mp) h
  rw [Text.fields_eq_splitOn, Text.fields_eq_splitOn] at fields
  have joined := congrArg (List.intercalate ['/']) fields
  rw [List.intercalate_splitOn, List.intercalate_splitOn] at joined
  exact String.toList_inj.mp joined

/-- Every key has a file of its own. -/
theorem target_inj (h : target a = target b) : a = b :=
  (String.append_left_inj _).mp (names_inj h)

theorem target_ne_nil (key : String) : target key ≠ [] := by
  rw [target, names, Text.fields_eq_splitOn]
  simp

def Outside (place : FilePath) : Prop := ¬ stagingArea <+: place

instance : DecidablePred Outside := fun _ => inferInstanceAs (Decidable (¬ _))

theorem not_outside_stagedTarget (key : String) : ¬ Outside (stagedTarget key) :=
  fun outside => outside (List.prefix_append stagingArea (target key))

end DirectorySink

end CrystalModel
