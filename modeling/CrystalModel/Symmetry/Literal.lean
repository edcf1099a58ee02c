import CrystalModel.Numeric.Reading
import CrystalModel.Symmetry.Error
import CrystalModel.Symmetry.Operation
import CrystalModel.Text.Character
import CrystalModel.Text.Listing

/-! # Operation literals

The notation of the crystallographic tables, such as `-x+1/2,y,z`: three components, each a
sum of signed terms. A term is an axis, a number, or a number and an axis; a number may be a
quotient. Blanks and letter case carry no meaning. -/
namespace CrystalModel

inductive Axis where
  | x
  | y
  | z
deriving DecidableEq, Repr

namespace Axis

def ofChar? : Char → Option Axis
  | 'x' => some x
  | 'y' => some y
  | 'z' => some z
  | _ => none

def letter : Axis → String
  | x => "x"
  | y => "y"
  | z => "z"

end Axis

/-- One summand of a component; without an axis it is a constant. -/
structure Term where
  value : Float
  axis : Option Axis
deriving DecidableEq, Repr

namespace Literal

def signs : Float → List Char → Float × List Char
  | sign, '+' :: rest => signs sign rest
  | sign, '-' :: rest => signs (-sign) rest
  | sign, rest => (sign, rest)

def isNumeral (c : Char) : Bool := c.isDigit || c == '.'

/-- The numeral in front, digits and points alike, and the text behind it. -/
def numeral (cs : List Char) : List Char × List Char :=
  (cs.takeWhile isNumeral, cs.dropWhile isNumeral)

def divisor (cs : List Char) : Except LiteralFault (Float × List Char) :=
  match numeral cs with
  | (digits, rest) => match Numeric.readDecimal digits with
    | none => .error (.invalidDenominator (String.ofList digits))
    | some d => if d == 0.0 then .error .divisionByZero else .ok (d, rest)

/-- The number in front, if there is one. -/
def number (cs : List Char) : Except LiteralFault (Option Float × List Char) :=
  match numeral cs with
  | ([], rest) => .ok (none, rest)
  | (digits, rest) => match Numeric.readDecimal digits with
    | none => .error (.invalidNumber (String.ofList digits))
    | some n => match rest with
      | '/' :: rest => match divisor rest with
        | .error fault => .error fault
        | .ok (d, rest) => .ok (some (n / d), rest)
      | rest => .ok (some n, rest)

def term (cs : List Char) : Except LiteralFault (Term × List Char) :=
  match signs 1.0 cs with
  | (sign, rest) => match number rest with
    | .error fault => .error fault
    | .ok (none, []) => .error .danglingSign
    | .ok (some n, []) => .ok (⟨sign * n, none⟩, [])
    | .ok (n, c :: rest) => match Axis.ofChar? c, n with
      | some axis, n => .ok (⟨sign * n.getD 1.0, some axis⟩, rest)
      | none, some n => .ok (⟨sign * n, none⟩, c :: rest)
      | none, none => .error (.unexpected c)

theorem signs_length (sign : Float) (cs : List Char) :
    (signs sign cs).2.length ≤ cs.length := by
  fun_induction signs sign cs <;> simp_all <;> omega

theorem numeral_length {cs digits rest : List Char} (h : numeral cs = (digits, rest)) :
    digits.length + rest.length = cs.length := by
  rw [numeral, Prod.mk.injEq] at h
  rw [← h.1, ← h.2, ← List.length_append, List.takeWhile_append_dropWhile]

theorem divisor_length {cs rest : List Char} {d : Float} (h : divisor cs = .ok (d, rest)) :
    rest.length ≤ cs.length := by
  unfold divisor at h
  split at h
  rename_i digits after hn
  have := numeral_length hn
  split at h
  · simp at h
  · split at h
    · simp at h
    · simp at h
      rw [← h.2]
      omega

theorem number_length {cs rest : List Char} {n : Option Float} (h : number cs = .ok (n, rest)) :
    rest.length + (if n.isSome then 1 else 0) ≤ cs.length := by
  unfold number at h
  split at h
  · rename_i after hn
    have := numeral_length hn
    simp at h
    obtain ⟨rfl, rfl⟩ := h
    simp at this ⊢
    omega
  · rename_i digits after hne hn
    have hl := numeral_length hn
    have hpos : 0 < digits.length := List.length_pos_iff.2 hne
    split at h
    · simp at h
    · split at h
      · split at h
        · simp at h
        · rename_i hd
          simp at h
          obtain ⟨rfl, rfl⟩ := h
          have := divisor_length hd
          simp at hl ⊢
          omega
      · simp at h
        obtain ⟨rfl, rfl⟩ := h
        simp
        omega

theorem term_length {cs rest : List Char} {t : Term} (h : term cs = .ok (t, rest)) :
    rest.length < cs.length := by
  unfold term at h
  split at h
  rename_i sign after hsigns
  have hs := signs_length 1.0 cs
  rw [hsigns] at hs
  simp only at hs
  split at h
  · simp at h
  · simp at h
  · rename_i n tail hn
    have hl := number_length hn
    simp at h
    obtain ⟨-, rfl⟩ := h
    simp at hl ⊢
    omega
  · rename_i n c tail hn
    have hl := number_length hn
    simp only [List.length_cons] at hl
    split at h
    · simp at h
      obtain ⟨-, rfl⟩ := h
      omega
    · simp at h
      obtain ⟨-, rfl⟩ := h
      simp at hl ⊢
      omega
    · simp at h

def terms (cs : List Char) : Except LiteralFault (List Term) :=
  match cs with
  | [] => .ok []
  | c :: cs =>
    match _h : term (c :: cs) with
    | .error fault => .error fault
    | .ok (t, rest) => (terms rest).map (t :: ·)
termination_by cs.length
decreasing_by exact term_length ‹_›

def total (axis : Option Axis) (ts : List Term) : Float :=
  ts.foldl (fun sum t => if t.axis = axis then sum + t.value else sum) 0.0

def component (text : List Char) : Except LiteralFault (Point × Float) :=
  match (Text.compact text).flatMap Text.lowercase with
  | [] => .error .emptyComponent
  | cs => (terms cs).map fun ts =>
    (⟨total (some .x) ts, total (some .y) ts, total (some .z) ts⟩, total none ts)

def components (cs : List Char) : Except LiteralFault (Mat3 × Point) :=
  match Text.fields ',' cs with
  | [first, second, third] =>
    match component first with
    | .error fault => .error fault
    | .ok (row1, c1) => match component second with
      | .error fault => .error fault
      | .ok (row2, c2) => match component third with
        | .error fault => .error fault
        | .ok (row3, c3) => .ok (⟨row1, row2, row3⟩, ⟨c1, c2, c3⟩)
  | parts => .error (.componentCount parts.length)

/-- Values closer to zero than this are not written. -/
def negligible : Float := 1.0e-12

/-- The factors one and minus one are written as a sign alone. -/
def factorText (axis : Axis) (value : Float) : String :=
  if value.abs < negligible then ""
  else if (value - 1.0).abs < negligible then "+" ++ axis.letter
  else if (value + 1.0).abs < negligible then "-" ++ axis.letter
  else Numeric.signed value ++ axis.letter

def withoutPlus (text : String) : String := String.ofList (text.toList.dropWhile (· == '+'))

/-- One component; the constant is written when it counts or when nothing else is. -/
def componentText (row : Point) (constant : Float) : String :=
  let axes := factorText .x row.x ++ factorText .y row.y ++ factorText .z row.z
  withoutPlus
    (if constant.abs ≥ negligible || axes.isEmpty then axes ++ Numeric.signed constant else axes)

def format (rotation : Mat3) (shift : Point) : String :=
  componentText rotation.row1 shift.x ++ "," ++
    componentText rotation.row2 shift.y ++ "," ++
    componentText rotation.row3 shift.z

end Literal

namespace Operation

def ofParts (rotation : Mat3) (shift : Point) : Operation :=
  ⟨Literal.format rotation shift, rotation, shift⟩

def identity : Operation := ofParts Mat3.identity Point.zero

/-- The literal is kept as written, less its blanks. -/
def parse (literal : String) : Except SymmetryError Operation :=
  match Literal.components literal.toList with
  | .error fault => .error (.invalidLiteral literal fault)
  | .ok (rotation, shift) =>
    .ok ⟨String.ofList (Text.compact literal.toList), rotation, shift⟩

def shifted (op : Operation) (shift : Point) : Operation :=
  ofParts op.rotation (op.shift + shift)

end Operation

end CrystalModel
