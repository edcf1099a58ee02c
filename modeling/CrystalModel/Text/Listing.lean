/-! # Listings

Texts joined with a separator, and cut at one. -/
namespace CrystalModel.Text

def joined (separator : String) : List String → String
  | [] => ""
  | [s] => s
  | s :: rest => s ++ separator ++ joined separator rest

def bracketed (items : List String) : String := "[" ++ joined ", " items ++ "]"

/-- The text cut at every occurrence of the separator. There is always one field more than there are
separators. -/
def fields (separator : Char) : List Char → List (List Char)
  | [] => [[]]
  | c :: rest =>
    if c = separator then [] :: fields separator rest
    else match fields separator rest with
      | [] => [[c]]
      | first :: others => (c :: first) :: others

theorem fields_eq_splitOn (separator : Char) (text : List Char) :
    fields separator text = text.splitOn separator := by
  induction text with
  | nil => rfl
  | cons c rest ih =>
    rw [fields, ih, List.splitOn, List.splitOn, List.splitOnP_cons_eq_if_modifyHead]
    by_cases cut : c = separator
    · simp [cut]
    · have head := List.splitOnP_ne_nil (· == separator) rest
      obtain ⟨first, others, split⟩ := List.exists_cons_of_ne_nil head
      simp [cut, split]

theorem fields_ne_nil (separator : Char) (text : List Char) : fields separator text ≠ [] := by
  rw [fields_eq_splitOn]
  exact List.splitOn_ne_nil separator text

theorem fields_cons_of_ne {separator c : Char} (other : c ≠ separator) (rest : List Char) :
    ∃ first others, fields separator rest = first :: others ∧
      fields separator (c :: rest) = (c :: first) :: others := by
  obtain ⟨first, others, cut⟩ := List.exists_cons_of_ne_nil (fields_ne_nil separator rest)
  refine ⟨first, others, cut, ?_⟩
  rw [fields, if_neg other, cut]

theorem not_mem_of_mem_fields {separator : Char} {text part : List Char}
    (h : part ∈ fields separator text) : separator ∉ part := by
  induction text generalizing part with
  | nil =>
    rw [fields, List.mem_singleton] at h
    rw [h]
    exact List.not_mem_nil
  | cons c rest ih =>
    by_cases cut : c = separator
    · rw [fields, if_pos cut] at h
      rcases List.mem_cons.mp h with rfl | later
      · exact List.not_mem_nil
      · exact ih later
    · obtain ⟨first, others, tail, whole⟩ := fields_cons_of_ne cut rest
      rw [whole] at h
      rw [tail] at ih
      rcases List.mem_cons.mp h with rfl | later
      · intro inside
        rcases List.mem_cons.mp inside with same | inside
        · exact cut same.symm
        · exact ih List.mem_cons_self inside
      · exact ih (List.mem_cons_of_mem first later)

theorem fields_eq_iff {separator : Char} {text : List Char} {parts : List (List Char)} :
    fields separator text = parts ↔
      [separator].intercalate parts = text ∧ parts ≠ [] ∧ ∀ part ∈ parts, separator ∉ part := by
  constructor
  · intro cut
    subst cut
    refine ⟨?_, fields_ne_nil separator text, fun part h => not_mem_of_mem_fields h⟩
    rw [fields_eq_splitOn, List.intercalate_splitOn]
  · intro h
    obtain ⟨joined, filled, apart⟩ := h
    rw [← joined, fields_eq_splitOn, List.splitOn_intercalate _ apart filled]

theorem fields_filter {separator : Char} {p : Char → Bool} (kept : p separator)
    (text : List Char) :
    fields separator (text.filter p) = (fields separator text).map (List.filter p) := by
  induction text with
  | nil => rfl
  | cons c rest ih =>
    by_cases cut : c = separator
    · subst cut
      rw [List.filter_cons_of_pos kept, fields, fields, if_pos rfl, if_pos rfl, ih, List.map_cons,
        List.filter_nil]
    · obtain ⟨first, others, tail, whole⟩ := fields_cons_of_ne cut rest
      rw [whole, List.map_cons]
      rw [tail, List.map_cons] at ih
      by_cases keep : p c
      · rw [List.filter_cons_of_pos keep, List.filter_cons_of_pos keep, fields, if_neg cut, ih]
      · rw [List.filter_cons_of_neg keep, List.filter_cons_of_neg keep, ih]

end CrystalModel.Text
