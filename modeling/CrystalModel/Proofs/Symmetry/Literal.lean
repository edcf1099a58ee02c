import CrystalModel.Proofs.Fallible
import CrystalModel.Symmetry.Group
import Mathlib.Data.List.TakeWhile

/-! # Operation literals

A literal is read exactly when it is one of the grammar: three components between commas, each a sum
of signed terms. What is kept of a literal is read again as the same operation. -/
namespace CrystalModel

namespace Literal

/-! ## The grammar -/

def InRun (c : Char) : Prop := c.isDigit ∨ c = '.'
instance (c : Char) : Decidable (InRun c) := inferInstanceAs (Decidable (_ ∨ _))

/-- Digits and points side by side, with a digit among them and no second point. -/
structure IsRun (run : List Char) : Prop where
  numerals : ∀ c ∈ run, InRun c
  digit : ∃ c ∈ run, c.isDigit
  point : run.count '.' ≤ 1

/-- What stands behind a run does not go on with it. -/
def EndsRun (rest : List Char) : Prop := ∀ c ∈ rest.head?, ¬InRun c

def ReadsAsZero (run : List Char) : Prop :=
  ∃ d, Numeric.readDecimal run = some d ∧ (d == 0.0) = true

inductive IsNumber : List Char → Prop
  | whole {run : List Char} (h : IsRun run) : IsNumber run
  | quotient {run divisor : List Char} (h : IsRun run) (divides : IsRun divisor)
      (nonzero : ¬ReadsAsZero divisor) : IsNumber (run ++ '/' :: divisor)

def IsAxis (c : Char) : Prop := c = 'x' ∨ c = 'y' ∨ c = 'z'
instance (c : Char) : Decidable (IsAxis c) := inferInstanceAs (Decidable (_ ∨ _ ∨ _))

def IsSign (c : Char) : Prop := c = '+' ∨ c = '-'
instance (c : Char) : Decidable (IsSign c) := inferInstanceAs (Decidable (_ ∨ _))

/-- A term less its signs, in front of `rest`. A number at its end takes in the whole run. -/
inductive IsUnsigned (rest : List Char) : List Char → Prop
  | axis {c : Char} (h : IsAxis c) : IsUnsigned rest [c]
  | number {text : List Char} (h : IsNumber text) (ends : EndsRun rest) : IsUnsigned rest text
  | multiple {text : List Char} {c : Char} (h : IsNumber text) (axis : IsAxis c) :
      IsUnsigned rest (text ++ [c])

def IsTerm (rest text : List Char) : Prop :=
  ∃ signs body, text = signs ++ body ∧ (∀ c ∈ signs, IsSign c) ∧ IsUnsigned rest body

inductive IsSum : List Char → Prop
  | empty : IsSum []
  | more {text rest : List Char} (first : IsTerm rest text) (others : IsSum rest) :
      IsSum (text ++ rest)

/-- The text less its blanks and in lower case. -/
def folded (part : List Char) : List Char := (Text.compact part).flatMap Text.lowercase

structure IsComponent (part : List Char) : Prop where
  nonempty : folded part ≠ []
  sum : IsSum (folded part)

/-! ## Runs -/

variable {run text rest whole fraction cs : List Char} {c : Char}

theorem IsRun.ne_nil (h : IsRun run) : run ≠ [] := by
  obtain ⟨d, hd, -⟩ := h.digit
  exact List.ne_nil_of_mem hd

theorem IsRun.starts (h : IsRun run) : ∃ c behind, run = c :: behind ∧ InRun c := by
  obtain ⟨c, behind, rfl⟩ := List.exists_cons_of_ne_nil h.ne_nil
  exact ⟨c, behind, rfl, h.numerals c List.mem_cons_self⟩

theorem not_of_head?_dropWhile {p : Char → Bool} (hc : c ∈ (cs.dropWhile p).head?) : ¬p c := by
  simpa [Option.mem_def.mp hc] using List.head?_dropWhile_not p cs

theorem count_point_of_digits (digits : ∀ c ∈ cs, c.isDigit) : cs.count '.' = 0 := by
  apply List.count_eq_zero.mpr
  intro point
  exact absurd (digits _ point) (by decide)

theorem isRun_of_digits (digits : ∀ c ∈ cs, c.isDigit) : IsRun cs ↔ cs ≠ [] := by
  constructor
  · intro h
    exact h.ne_nil
  · intro filled
    obtain ⟨d, hd⟩ := List.exists_mem_of_ne_nil cs filled
    have point := count_point_of_digits digits
    exact ⟨fun c hc => Or.inl (digits c hc), ⟨d, hd, digits d hd⟩, by omega⟩

theorem isRun_of_point (digits : ∀ c ∈ whole, c.isDigit) :
    IsRun (whole ++ '.' :: fraction) ↔
      (∀ c ∈ fraction, c.isDigit) ∧ (whole ≠ [] ∨ fraction ≠ []) := by
  have points : (whole ++ '.' :: fraction).count '.' = fraction.count '.' + 1 := by
    rw [List.count_append, List.count_cons_self, count_point_of_digits digits, Nat.zero_add]
  constructor
  · intro h
    obtain ⟨numerals, ⟨d, hd, digit⟩, point⟩ := h
    have once : '.' ∉ fraction := List.count_eq_zero.mp (by omega)
    constructor
    · intro c hc
      rcases numerals c (by simp [hc]) with digit | dot
      · exact digit
      · exact absurd (dot ▸ hc) once
    · rcases List.mem_append.mp hd with inside | inside
      · exact Or.inl (List.ne_nil_of_mem inside)
      · rcases List.mem_cons.mp inside with rfl | inside
        · exact absurd digit (by decide)
        · exact Or.inr (List.ne_nil_of_mem inside)
  · intro h
    obtain ⟨decimals, filled⟩ := h
    have once := count_point_of_digits decimals
    refine ⟨?_, ?_, by omega⟩
    · intro c hc
      rcases List.mem_append.mp hc with inside | inside
      · exact Or.inl (digits c inside)
      · rcases List.mem_cons.mp inside with dot | inside
        · exact Or.inr dot
        · exact Or.inl (decimals c inside)
    · rcases filled with before | behind
      · obtain ⟨d, hd⟩ := List.exists_mem_of_ne_nil _ before
        exact ⟨d, List.mem_append_left _ hd, digits d hd⟩
      · obtain ⟨d, hd⟩ := List.exists_mem_of_ne_nil _ behind
        exact ⟨d, List.mem_append_right _ (List.mem_cons_of_mem _ hd), decimals d hd⟩

theorem readDecimal_isSome_iff (cs : List Char) :
    (∃ d, Numeric.readDecimal cs = some d) ↔ IsRun cs := by
  have parts : cs.takeWhile Char.isDigit ++ cs.dropWhile Char.isDigit = cs :=
    List.takeWhile_append_dropWhile
  have digits : ∀ c ∈ cs.takeWhile Char.isDigit, c.isDigit := fun _ => List.mem_takeWhile_imp
  have stop : ∀ c ∈ (cs.dropWhile Char.isDigit).head?, ¬c.isDigit :=
    fun _ => not_of_head?_dropWhile
  rw [Numeric.readDecimal]
  generalize cs.takeWhile Char.isDigit = whole at *
  generalize cs.dropWhile Char.isDigit = behind at *
  subst parts
  cases behind with
  | nil =>
    rw [List.append_nil, isRun_of_digits digits]
    simp
  | cons c fraction =>
    by_cases dot : c = '.'
    · subst dot
      rw [isRun_of_point digits]
      by_cases decimals : ∀ c ∈ fraction, c.isDigit
      · have digital : fraction.all Char.isDigit := List.all_eq_true.mpr decimals
        rw [and_iff_right decimals]
        by_cases bare : whole = [] ∧ fraction = []
        · simp [bare]
        · simp [digital, bare, not_and_or.mp bare]
      · have other : ¬fraction.all Char.isDigit := mt List.all_eq_true.mp decimals
        simp [other, decimals]
    · have refused : ¬IsRun (whole ++ c :: fraction) := by
        intro h
        rcases h.numerals c (by simp) with digit | point
        · exact stop c rfl digit
        · exact dot point
      simp [dot, refused]

/-! ## Numbers -/

theorem isNumeral_iff : isNumeral c ↔ InRun c := by
  rw [isNumeral, Bool.or_eq_true, beq_iff_eq, InRun]

theorem EndsRun.takeWhile (h : EndsRun rest) : rest.takeWhile isNumeral = [] := by
  cases rest with
  | nil => rfl
  | cons c rest => exact List.takeWhile_cons_of_neg (mt isNumeral_iff.mp (h c rfl))

theorem EndsRun.dropWhile (h : EndsRun rest) : rest.dropWhile isNumeral = rest := by
  cases rest with
  | nil => rfl
  | cons c rest => exact List.dropWhile_cons_of_neg (mt isNumeral_iff.mp (h c rfl))

theorem numeral_eq_iff :
    numeral cs = (run, rest) ↔ cs = run ++ rest ∧ (∀ c ∈ run, InRun c) ∧ EndsRun rest := by
  rw [numeral, Prod.mk.injEq]
  constructor
  · intro h
    obtain ⟨taken, left⟩ := h
    refine ⟨?_, ?_, ?_⟩
    · rw [← taken, ← left, List.takeWhile_append_dropWhile]
    · intro c hc
      rw [← taken] at hc
      exact isNumeral_iff.mp (List.mem_takeWhile_imp hc)
    · intro c hc
      rw [← left] at hc
      exact mt isNumeral_iff.mpr (not_of_head?_dropWhile hc)
  · intro h
    obtain ⟨rfl, inside, ends⟩ := h
    have numerals : ∀ c ∈ run, isNumeral c := fun c hc => isNumeral_iff.mpr (inside c hc)
    rw [List.takeWhile_append_of_pos numerals, List.dropWhile_append_of_pos numerals,
      ends.takeWhile, ends.dropWhile, List.append_nil]
    exact ⟨rfl, rfl⟩

theorem IsRun.numeral_append (h : IsRun run) (ends : EndsRun rest) :
    numeral (run ++ rest) = (run, rest) :=
  numeral_eq_iff.mpr ⟨rfl, h.numerals, ends⟩

theorem divisor_ok_iff :
    (∃ d, divisor cs = .ok (d, rest)) ↔
      ∃ run, cs = run ++ rest ∧ IsRun run ∧ ¬ReadsAsZero run ∧ EndsRun rest := by
  constructor
  · intro h
    obtain ⟨d, h⟩ := h
    rcases taken : numeral cs with ⟨run, behind⟩
    obtain ⟨rfl, -, ends⟩ := numeral_eq_iff.mp taken
    cases reading : Numeric.readDecimal run with
    | none => simp [divisor, taken, reading] at h
    | some value =>
      by_cases zero : value == 0.0
      · simp [divisor, taken, reading, zero] at h
      · have left : behind = rest := by
          simp [divisor, taken, reading, zero] at h
          exact h.2
        subst left
        refine ⟨run, rfl, (readDecimal_isSome_iff run).mp ⟨value, reading⟩, ?_, ends⟩
        intro asZero
        obtain ⟨d, hd, nothing⟩ := asZero
        rw [reading, Option.some.injEq] at hd
        exact zero (hd ▸ nothing)
  · intro h
    obtain ⟨run, rfl, hrun, nonzero, ends⟩ := h
    obtain ⟨d, hd⟩ := (readDecimal_isSome_iff run).mpr hrun
    have apart : ¬(d == 0.0) = true := fun zero => nonzero ⟨d, hd, zero⟩
    refine ⟨d, ?_⟩
    simp [divisor, hrun.numeral_append ends, hd, apart]

theorem number_whole {n : Float} (taken : numeral cs = (run, rest)) (filled : run ≠ [])
    (reading : Numeric.readDecimal run = some n) (alone : rest.head? ≠ some '/') :
    number cs = .ok (some n, rest) := by
  obtain ⟨c, run, rfl⟩ := List.exists_cons_of_ne_nil filled
  rw [number, taken]
  simp only [reading]
  split
  · exact absurd rfl alone
  · rfl

theorem number_quotient {n : Float} (taken : numeral cs = (run, '/' :: rest)) (filled : run ≠ [])
    (reading : Numeric.readDecimal run = some n) :
    number cs = (divisor rest).map fun d => (some (n / d.1), d.2) := by
  obtain ⟨c, run, rfl⟩ := List.exists_cons_of_ne_nil filled
  rw [number, taken]
  simp only [reading]
  cases divisor rest <;> rfl

theorem number_of_endsRun (h : EndsRun cs) : number cs = .ok (none, cs) := by
  have taken : numeral cs = ([], cs) := numeral_eq_iff.mpr ⟨rfl, by simp, h⟩
  rw [number, taken]

theorem number_sound {n : Option Float} (read : number cs = .ok (n, rest)) :
    n = none ∧ cs = rest ∨ n ≠ none ∧ ∃ text, cs = text ++ rest ∧ IsNumber text ∧ EndsRun rest := by
  rcases taken : numeral cs with ⟨run, behind⟩
  obtain ⟨rfl, -, ends⟩ := numeral_eq_iff.mp taken
  by_cases empty : run = []
  · subst empty
    rw [List.nil_append, number_of_endsRun ends] at read
    cases read
    exact Or.inl ⟨rfl, rfl⟩
  · cases reading : Numeric.readDecimal run with
    | none =>
      obtain ⟨c, tail, rfl⟩ := List.exists_cons_of_ne_nil empty
      rw [number, taken] at read
      simp [reading] at read
    | some value =>
      have hrun := (readDecimal_isSome_iff _).mp ⟨value, reading⟩
      right
      by_cases slash : behind.head? = some '/'
      · obtain ⟨after, rfl⟩ := List.head?_eq_some_iff.mp slash
        rw [number_quotient taken empty reading, map_ok_iff] at read
        obtain ⟨⟨d, left⟩, hd, same⟩ := read
        cases same
        obtain ⟨divides, rfl, hdivides, nonzero, ends⟩ := divisor_ok_iff.mp ⟨d, hd⟩
        exact ⟨by simp, run ++ '/' :: divides, by simp, .quotient hrun hdivides nonzero, ends⟩
      · rw [number_whole taken empty reading slash] at read
        cases read
        exact ⟨by simp, run, rfl, .whole hrun, ends⟩

theorem IsNumber.number_append (h : IsNumber text) (ends : EndsRun rest)
    (alone : rest.head? ≠ some '/') : ∃ n, number (text ++ rest) = .ok (some n, rest) := by
  cases h with
  | whole hrun =>
    obtain ⟨value, reading⟩ := (readDecimal_isSome_iff _).mpr hrun
    exact ⟨value, number_whole (hrun.numeral_append ends) hrun.ne_nil reading alone⟩
  | @quotient run divides hrun hdivides nonzero =>
    obtain ⟨value, reading⟩ := (readDecimal_isSome_iff _).mpr hrun
    obtain ⟨d, hd⟩ := divisor_ok_iff.mpr ⟨divides, rfl, hdivides, nonzero, ends⟩
    have stops : EndsRun ('/' :: (divides ++ rest)) := by
      intro c hc
      cases hc
      decide
    refine ⟨value / d, ?_⟩
    rw [List.append_assoc, List.cons_append,
      number_quotient (hrun.numeral_append stops) hrun.ne_nil reading, hd]
    rfl

/-! ## Terms -/

theorem signs_split (sign : Float) (cs : List Char) :
    ∃ front, cs = front ++ (signs sign cs).2 ∧ ∀ c ∈ front, IsSign c := by
  fun_induction signs sign cs with
  | case1 sign rest ih =>
    obtain ⟨front, split, signed⟩ := ih
    exact ⟨'+' :: front, by rw [List.cons_append, ← split], by simpa [IsSign] using signed⟩
  | case2 sign rest ih =>
    obtain ⟨front, split, signed⟩ := ih
    exact ⟨'-' :: front, by rw [List.cons_append, ← split], by simpa [IsSign] using signed⟩
  | case3 sign rest => exact ⟨[], rfl, by simp⟩

theorem signs_append {front : List Char} (signed : ∀ c ∈ front, IsSign c)
    (stop : ∀ c ∈ rest.head?, ¬IsSign c) (sign : Float) :
    (signs sign (front ++ rest)).2 = rest := by
  induction front generalizing sign with
  | nil =>
    rw [List.nil_append]
    fun_cases signs sign rest with
    | case1 => exact absurd (Or.inl rfl) (stop '+' rfl)
    | case2 => exact absurd (Or.inr rfl) (stop '-' rfl)
    | case3 => rfl
  | cons c front ih =>
    obtain ⟨first, others⟩ := List.forall_mem_cons.mp signed
    rcases first with rfl | rfl
    · exact ih others sign
    · exact ih others (-sign)

theorem ofChar?_eq_none_iff : Axis.ofChar? c = none ↔ ¬IsAxis c := by
  rw [IsAxis]
  fun_cases Axis.ofChar? c with
  | case1 => simp
  | case2 => simp
  | case3 => simp
  | case4 => simp_all

/-- An axis goes with the number in front of it, if there is one. -/
theorem term_of_axis {n : Option Float} (read : number (signs 1.0 cs).2 = .ok (n, c :: rest))
    (axis : IsAxis c) : ∃ t, term cs = .ok (t, rest) := by
  cases named : Axis.ofChar? c with
  | none => exact absurd axis (ofChar?_eq_none_iff.mp named)
  | some letter => simp [term, read, named]

theorem term_of_number {n : Float} (read : number (signs 1.0 cs).2 = .ok (some n, rest))
    (stop : ∀ c ∈ rest.head?, ¬IsAxis c) : ∃ t, term cs = .ok (t, rest) := by
  cases rest with
  | nil => simp [term, read]
  | cons c rest => simp [term, read, ofChar?_eq_none_iff.mpr (stop c rfl)]

theorem term_of_nothing (read : number (signs 1.0 cs).2 = .ok (none, rest))
    (stop : ∀ c ∈ rest.head?, ¬IsAxis c) : ∃ fault, term cs = .error fault := by
  cases rest with
  | nil => simp [term, read]
  | cons c rest => simp [term, read, ofChar?_eq_none_iff.mpr (stop c rfl)]

theorem axis_or_not (cs : List Char) :
    (∃ c behind, cs = c :: behind ∧ IsAxis c) ∨ ∀ c ∈ cs.head?, ¬IsAxis c := by
  cases cs with
  | nil => exact Or.inr (by simp)
  | cons c behind =>
    by_cases axis : IsAxis c
    · exact Or.inl ⟨c, behind, rfl, axis⟩
    · refine Or.inr ?_
      intro d hd
      cases hd
      exact axis

theorem term_sound {t : Term} (h : term cs = .ok (t, rest)) :
    ∃ text, cs = text ++ rest ∧ IsTerm rest text := by
  obtain ⟨front, split, signed⟩ := signs_split 1.0 cs
  suffices ∃ body, (signs 1.0 cs).2 = body ++ rest ∧ IsUnsigned rest body by
    obtain ⟨body, left, unsigned⟩ := this
    refine ⟨front ++ body, ?_, front, body, rfl, signed, unsigned⟩
    rw [List.append_assoc, ← left, ← split]
  cases read : number (signs 1.0 cs).2 with
  | error fault => simp [term, read] at h
  | ok pair =>
    obtain ⟨n, behind⟩ := pair
    rcases axis_or_not behind with ⟨c, tail, rfl, letter⟩ | stop
    · obtain ⟨t', other⟩ := term_of_axis read letter
      rw [h] at other
      cases other
      rcases number_sound read with ⟨-, left⟩ | ⟨-, text, left, number, -⟩
      · exact ⟨[c], left, .axis letter⟩
      · exact ⟨text ++ [c], by rw [left, List.append_assoc]; rfl, .multiple number letter⟩
    · cases n with
      | none =>
        obtain ⟨fault, refused⟩ := term_of_nothing read stop
        rw [h] at refused
        cases refused
      | some value =>
        obtain ⟨t', other⟩ := term_of_number read stop
        rw [h] at other
        cases other
        rcases number_sound read with ⟨nothing, -⟩ | ⟨-, text, left, number, ends⟩
        · cases nothing
        · exact ⟨text, left, .number number ends⟩

/-! ## Sums -/

theorem IsAxis.apart (h : IsAxis c) : ¬IsSign c ∧ ¬InRun c ∧ c ≠ '/' := by
  rcases h with rfl | rfl | rfl
  · decide
  · decide
  · decide

theorem IsSign.apart (h : IsSign c) : ¬InRun c := by
  rcases h with rfl | rfl
  · decide
  · decide

theorem IsAxis.endsRun (h : IsAxis c) : EndsRun (c :: rest) := by
  intro d hd
  cases hd
  exact h.apart.2.1

theorem IsNumber.starts (h : IsNumber text) : ∃ c behind, text = c :: behind ∧ InRun c := by
  cases h with
  | whole hrun => exact hrun.starts
  | quotient hrun _ _ =>
    obtain ⟨c, behind, rfl, numeral⟩ := hrun.starts
    exact ⟨c, _, rfl, numeral⟩

theorem IsUnsigned.starts (h : IsUnsigned rest text) :
    ∃ c behind, text = c :: behind ∧ (IsAxis c ∧ behind = [] ∨ InRun c) := by
  cases h with
  | axis letter => exact ⟨_, [], rfl, Or.inl ⟨letter, rfl⟩⟩
  | number hnumber _ =>
    obtain ⟨c, behind, rfl, numeral⟩ := hnumber.starts
    exact ⟨c, behind, rfl, Or.inr numeral⟩
  | multiple hnumber _ =>
    obtain ⟨c, behind, rfl, numeral⟩ := hnumber.starts
    exact ⟨c, _, rfl, Or.inr numeral⟩

theorem IsTerm.starts (h : IsTerm rest text) :
    ∃ c behind, text = c :: behind ∧ (IsSign c ∨ IsAxis c ∧ behind = [] ∨ InRun c) := by
  obtain ⟨front, body, rfl, signed, unsigned⟩ := h
  cases front with
  | nil =>
    obtain ⟨c, behind, rfl, start⟩ := unsigned.starts
    exact ⟨c, behind, rfl, Or.inr start⟩
  | cons c front => exact ⟨c, _, rfl, Or.inl (signed c List.mem_cons_self)⟩

theorem IsSum.no_slash (h : IsSum cs) : cs.head? ≠ some '/' := by
  cases h with
  | empty => simp
  | more first _ =>
    obtain ⟨c, behind, rfl, start⟩ := first.starts
    intro slash
    cases slash
    rcases start with sign | ⟨axis, -⟩ | numeral
    · exact absurd sign (by decide)
    · exact axis.apart.2.2 rfl
    · exact absurd numeral (by decide)

/-- An axis in front is a term of its own, so the number of another term may have it. -/
theorem IsSum.behind_axis (h : IsSum (c :: cs)) (axis : IsAxis c) : IsSum cs := by
  generalize whole : c :: cs = sum at h
  cases h with
  | empty => cases whole
  | more first others =>
    obtain ⟨d, behind, rfl, start⟩ := first.starts
    cases whole
    rcases start with sign | ⟨-, rfl⟩ | numeral
    · exact absurd sign axis.apart.1
    · exact others
    · exact absurd numeral axis.apart.2.1

theorem IsTerm.signs_append (h : IsTerm rest text) :
    ∃ body, (signs 1.0 (text ++ rest)).2 = body ++ rest ∧ IsUnsigned rest body := by
  obtain ⟨front, body, rfl, signed, unsigned⟩ := h
  refine ⟨body, ?_, unsigned⟩
  obtain ⟨c, behind, rfl, start⟩ := unsigned.starts
  rw [List.append_assoc]
  apply Literal.signs_append signed
  intro d hd sign
  cases hd
  rcases start with ⟨axis, -⟩ | numeral
  · exact axis.apart.1 sign
  · exact sign.apart numeral

/-- The term that is read in front of a sum may take the axis of the next one along. -/
theorem IsSum.term_append (others : IsSum rest) (first : IsTerm rest text) :
    ∃ t behind, term (text ++ rest) = .ok (t, behind) ∧ IsSum behind := by
  obtain ⟨body, left, unsigned⟩ := first.signs_append
  cases unsigned with
  | @axis c letter =>
    have read : number (signs 1.0 (text ++ rest)).2 = .ok (none, c :: rest) := by
      rw [left]
      exact number_of_endsRun letter.endsRun
    obtain ⟨t, taken⟩ := term_of_axis read letter
    exact ⟨t, rest, taken, others⟩
  | number hnumber ends =>
    obtain ⟨n, read⟩ := hnumber.number_append ends others.no_slash
    rw [← left] at read
    rcases axis_or_not rest with ⟨c, behind, rfl, letter⟩ | stop
    · obtain ⟨t, taken⟩ := term_of_axis read letter
      exact ⟨t, behind, taken, others.behind_axis letter⟩
    · obtain ⟨t, taken⟩ := term_of_number read stop
      exact ⟨t, rest, taken, others⟩
  | @multiple number c hnumber letter =>
    rw [List.append_assoc, List.singleton_append] at left
    have alone : (c :: rest).head? ≠ some '/' := by
      simpa using letter.apart.2.2
    obtain ⟨n, read⟩ := hnumber.number_append letter.endsRun alone
    rw [← left] at read
    obtain ⟨t, taken⟩ := term_of_axis read letter
    exact ⟨t, rest, taken, others⟩

theorem IsSum.step (h : IsSum cs) (filled : cs ≠ []) :
    ∃ t rest, term cs = .ok (t, rest) ∧ IsSum rest := by
  cases h with
  | empty => exact absurd rfl filled
  | more first others => exact others.term_append first

theorem terms_ok_iff (cs : List Char) : (∃ ts, terms cs = .ok ts) ↔ IsSum cs := by
  fun_induction terms cs with
  | case1 => exact ⟨fun _ => .empty, fun _ => ⟨[], rfl⟩⟩
  | case2 c cs fault refused =>
    constructor
    · intro h
      obtain ⟨ts, h⟩ := h
      cases h
    · intro h
      obtain ⟨t, rest, read, -⟩ := h.step (List.cons_ne_nil c cs)
      rw [refused] at read
      cases read
  | case3 c cs t rest read ih =>
    constructor
    · intro h
      obtain ⟨ts, h⟩ := h
      obtain ⟨others, hothers, -⟩ := map_ok_iff.mp h
      obtain ⟨text, split, first⟩ := term_sound read
      rw [split]
      exact .more first (ih.mp ⟨others, hothers⟩)
    · intro h
      obtain ⟨t', rest', other, sum⟩ := h.step (List.cons_ne_nil c cs)
      rw [read] at other
      cases other
      obtain ⟨ts, hts⟩ := ih.mpr sum
      exact ⟨t :: ts, map_ok_iff.mpr ⟨ts, hts, rfl⟩⟩

/-! ## Components -/

theorem component_ok_iff {part : List Char} :
    (∃ row, component part = .ok row) ↔ IsComponent part := by
  have whole : folded part = (Text.compact part).flatMap Text.lowercase := rfl
  rw [component, ← whole]
  cases letters : folded part with
  | nil =>
    constructor
    · intro h
      obtain ⟨row, h⟩ := h
      cases h
    · intro h
      exact absurd letters h.nonempty
  | cons c rest =>
    simp only [map_ok_iff]
    constructor
    · intro h
      obtain ⟨row, ts, read, -⟩ := h
      have sum := (terms_ok_iff _).mp ⟨ts, read⟩
      exact ⟨by simp [letters], letters ▸ sum⟩
    · intro h
      obtain ⟨ts, read⟩ := (terms_ok_iff _).mpr (letters ▸ h.sum)
      exact ⟨_, ts, read, rfl⟩

theorem components_ok_iff :
    (∃ rows, components cs = .ok rows) ↔
      (Text.fields ',' cs).length = 3 ∧ ∀ part ∈ Text.fields ',' cs, IsComponent part := by
  simp only [← component_ok_iff]
  rw [components]
  split
  · rename_i first second third three
    simp only [three, List.forall_mem_cons, List.length_cons, List.length_nil, true_and]
    cases component first with
    | error fault => simp
    | ok row1 =>
      cases component second with
      | error fault => simp
      | ok row2 =>
        cases component third with
        | error fault => simp
        | ok row3 => simp
  · rename_i other
    simp only [reduceCtorEq, exists_false, false_iff]
    intro h
    obtain ⟨first, second, third, three⟩ := List.length_eq_three.mp h.1
    exact other first second third three

/-! ## Literals that are read again -/

theorem component_compact (part : List Char) : component (Text.compact part) = component part := by
  rw [component, component, Text.compact_compact]

theorem fields_compact (cs : List Char) :
    Text.fields ',' (Text.compact cs) = (Text.fields ',' cs).map Text.compact :=
  Text.fields_filter (by decide) cs

theorem components_compact (cs : List Char) : components (Text.compact cs) = components cs := by
  rw [components, components, fields_compact]
  rcases Text.fields ',' cs with _ | ⟨first, _ | ⟨second, _ | ⟨third, _ | ⟨fourth, others⟩⟩⟩⟩
  · rfl
  · rfl
  · rfl
  · simp only [List.map_cons, List.map_nil, component_compact]
  · simp

end Literal

namespace Operation

/-- A literal is read exactly when it has three parts between commas, each of them a component. -/
theorem parse_accepts_iff (literal : String) :
    (∃ op, parse literal = .ok op) ↔
      ∃ parts : List (List Char), parts.length = 3 ∧ [','].intercalate parts = literal.toList ∧
        ∀ part ∈ parts, ',' ∉ part ∧ Literal.IsComponent part := by
  have read : (∃ op, parse literal = .ok op) ↔
      ∃ rows, Literal.components literal.toList = .ok rows := by
    rw [parse]
    cases Literal.components literal.toList with
    | error fault => simp
    | ok rows => simp
  rw [read, Literal.components_ok_iff]
  constructor
  · intro h
    obtain ⟨three, valid⟩ := h
    obtain ⟨joined, -, apart⟩ := Text.fields_eq_iff.mp (Eq.refl (Text.fields ',' literal.toList))
    exact ⟨_, three, joined, fun part hpart => ⟨apart part hpart, valid part hpart⟩⟩
  · intro h
    obtain ⟨parts, three, joined, valid⟩ := h
    have filled : parts ≠ [] := List.ne_nil_of_length_pos (by omega)
    have cut := Text.fields_eq_iff.mpr ⟨joined, filled, fun part hpart => (valid part hpart).1⟩
    rw [cut]
    exact ⟨three, fun part hpart => (valid part hpart).2⟩

theorem parse_literal {literal : String} {op : Operation} (h : parse literal = .ok op) :
    parse op.literal = .ok op := by
  rw [parse] at h
  cases read : Literal.components literal.toList with
  | error fault =>
    rw [read] at h
    cases h
  | ok rows =>
    rw [read] at h
    cases h
    rw [parse, String.toList_ofList, Literal.components_compact, read, Text.compact_compact]

end Operation

namespace SpaceGroup

variable {t : Tolerance} {index : Nat} {name : String} {g : SpaceGroup}

/-- The group that `n` times over is read again from its own literals. -/
def reloaded (t : Tolerance) (g : SpaceGroup) : Nat → Except SymmetryError SpaceGroup
  | 0 => .ok g
  | n + 1 => do
    let g ← reloaded t g n
    ofLiterals t g.index g.name (g.operations.map (·.literal))

theorem ofOperations_eq {operations : List Operation}
    (h : ofOperations t index name operations = .ok g) : g = ⟨index, name, operations⟩ := by
  rw [ofOperations] at h
  split at h
  · cases h
  · split at h
    · cases h
    · split at h
      · cases h
      · cases h
        rfl

theorem ofLiterals_reloads {literals : List String}
    (h : ofLiterals t index name literals = .ok g) :
    ofLiterals t g.index g.name (g.operations.map (·.literal)) = .ok g := by
  rw [ofLiterals, bind_ok_iff] at h
  obtain ⟨operations, read, made⟩ := h
  have whole := ofOperations_eq made
  subst whole
  have again : (operations.map (·.literal)).mapM Operation.parse = .ok operations := by
    rw [mapM_ok_iff, List.forall₂_map_left_iff, List.forall₂_same]
    intro op hop
    obtain ⟨literal, -, parsed⟩ := aligned_mem_right (mapM_ok_iff.mp read) hop
    exact Operation.parse_literal parsed
  rw [ofLiterals, again]
  exact made

/-- An operation is read again from what is kept of its literal, and so is a group, as often as
wanted. Nothing differs, not even a value that is no number. -/
theorem literal_reloads :
    (∀ (literal : String) (op : Operation), Operation.parse literal = .ok op →
      Operation.parse op.literal = .ok op) ∧
    ∀ (t : Tolerance) (index : Nat) (name : String) (literals : List String) (g : SpaceGroup),
      ofLiterals t index name literals = .ok g → ∀ n, reloaded t g n = .ok g := by
  refine ⟨fun _ _ => Operation.parse_literal, ?_⟩
  intro t index name literals g h n
  induction n with
  | zero => rfl
  | succ n ih =>
    rw [reloaded, bind_ok_iff]
    exact ⟨g, ih, ofLiterals_reloads h⟩

/-- A glide plane with blanks of several kinds, capitals, a quotient and a bare point. -/
def loose : String := " -X + 1/2 , y,\u2003Z+.5"

theorem loose_reloads :
    ∃ op g, Operation.parse loose = .ok op ∧ op.literal = "-X+1/2,y,Z+.5" ∧
      Operation.parse op.literal = .ok op ∧
      ofLiterals (.ofWidth 1.0e-6) 3 "loose" ["X, Y, Z", loose] = .ok g ∧
      reloaded (.ofWidth 1.0e-6) g 2 = .ok g := by
  have kept : (Operation.parse loose).toOption.any (·.literal == "-X+1/2,y,Z+.5") := by
    decide +kernel
  have made : (ofLiterals (.ofWidth 1.0e-6) 3 "loose" ["X, Y, Z", loose]).toOption.any
      (·.operations.length == 2) := by
    decide +kernel
  obtain ⟨op, parsed, literal⟩ := ok_of_any kept
  obtain ⟨g, read, _⟩ := ok_of_any made
  exact ⟨op, g, parsed, beq_iff_eq.mp literal, literal_reloads.1 loose op parsed, read,
    literal_reloads.2 _ _ _ _ g read 2⟩

end SpaceGroup

end CrystalModel
