import CrystalModel.Document.Basic
import CrystalModel.Document.Toml.Moment
import CrystalModel.Document.Toml.Text
import CrystalModel.Numeric.Reading

/-! # Scalars in TOML

What is written without quotes and brackets. Some scalars are well formed and still have no
value: moments, numbers out of range, and integers with something else among their digits. -/
namespace CrystalModel.Document.Toml

def isHexDigit (c : Char) : Bool := (hexDigit? c).isSome

/-- Whether every underscore has a digit on either side. The first one needs none in front of it
where it is `openFront`. -/
def isGrouped (isDigit : Char → Bool) (openFront : Bool) : List Char → Bool
  | [] => true
  | '_' :: rest => openFront && (rest.head?.map isDigit).getD false && isGrouped isDigit false rest
  | c :: rest => isGrouped isDigit (isDigit c) rest

def ungrouped (cs : List Char) : List Char := cs.filter (· != '_')

def wholeNumber (base : Nat) (digits : List Char) : Option Nat :=
  if digits.isEmpty then none
  else digits.foldlM (fun n c => do
    let d ← hexDigit? c
    if d < base then some (base * n + d) else none) 0

/-- An integer behind its prefix. It need not have digits, but then it has no value. -/
def radixInteger (base : Nat) (cs : List Char) : Option Document :=
  if isGrouped isHexDigit false cs && (ungrouped cs).all fun c =>
      ((hexDigit? c).map fun d => decide (d < base)).getD false then
    some (((wholeNumber base (ungrouped cs)).map fun n => .integer n).getD .unreadable)
  else none

structure Numeral where
  signed : Bool
  negative : Bool
  text : List Char
deriving DecidableEq, Repr

namespace Numeral

/-- Underscores are checked, but not what else stands between them. -/
def integer (n : Numeral) : Option Document :=
  if n.text.isEmpty || (n.text.head? == some '0' && n.text.length != 1) then none
  else if isGrouped isHexDigit n.signed n.text then
    some (((wholeNumber 10 (ungrouped n.text)).map fun (k : Nat) =>
      .integer (if n.negative then -(k : Int) else k)).getD .unreadable)
  else none

end Numeral

def floatPart (cs : List Char) : Option (List Char × List Char) :=
  let front := cs.takeWhile fun c => c.isDigit || c == '_'
  if (ungrouped front).isEmpty then none else some (front, cs.drop front.length)

def isExponentMark (c : Char) : Bool := c == 'e' || c == 'E'

def Numeral.of : List Char → Numeral
  | '+' :: rest => ⟨true, false, rest⟩
  | '-' :: rest => ⟨true, true, rest⟩
  | cs => ⟨false, false, cs⟩

def floatExponent : List Char → Option Int
  | [] => some 0
  | c :: rest => do
    if !isExponentMark c then none
    let exponent := Numeral.of rest
    let (digits, rest) ← floatPart exponent.text
    if !rest.isEmpty then none
    let n : Int := Numeric.digitsValue (ungrouped digits)
    some (if exponent.negative then -n else n)

namespace Numeral

/-- A number with a fraction or an exponent. What is too great for a double has no value. -/
def float (n : Numeral) : Option Document := do
  if !isGrouped Char.isDigit n.signed n.text then none
  let (whole, rest) ← floatPart n.text
  if whole.head? == some '0' && (ungrouped whole).length != 1 then none
  let (fraction, rest) ← match rest with
    | '.' :: rest => floatPart rest
    | rest => some ([], rest)
  let exponent ← floatExponent rest
  let digits := ungrouped fraction
  let x := Numeric.scaledDecimal (Numeric.digitsValue (ungrouped whole ++ digits))
    (exponent - digits.length)
  some (if x.isInf then .unreadable else .real (if n.negative then -x else x))

/-- Told apart by what follows the first digits. -/
def read (n : Numeral) : Option Document :=
  let rest := n.text.dropWhile Char.isDigit
  match rest with
  | [] => n.integer
  | c :: _ =>
    if c == '-' || c == ':' then
      if !n.signed && isMoment n.text then some .unreadable else none
    else if rest.contains ' ' then none
    else if rest.any fun c => c == '.' || isExponentMark c then n.float
    else if c == '_' then n.integer
    else none

end Numeral

def number (cs : List Char) : Option Document :=
  match cs with
  | '0' :: 'x' :: rest => radixInteger 16 rest
  | '0' :: 'o' :: rest => radixInteger 8 rest
  | '0' :: 'b' :: rest => radixInteger 2 rest
  | cs =>
    let n := Numeral.of cs
    if n.text = ['i', 'n', 'f'] then
      some (.real (if n.negative then -1.0 / 0.0 else 1.0 / 0.0))
    else if n.text = ['n', 'a', 'n'] then some (.real (0.0 / 0.0))
    else n.read

def scalar (cs : List Char) : Option Document :=
  if cs = ['t', 'r', 'u', 'e'] then some (.flag true)
  else if cs = ['f', 'a', 'l', 's', 'e'] then some (.flag false)
  else number cs

def wordEnds : List Char :=
  ['.', '=', ',', '[', ']', '\x7b', '\x7d', ' ', '\t', '#', '\r', '\n']

def isWordChar (c : Char) : Bool := !wordEnds.contains c

def wordFollows (cs : List Char) : Bool :=
  match skipBlanks cs with
  | c :: _ => isWordChar c && c != '"' && c != '\x27'
  | [] => false

/-- The scalar in front and the text behind it. Words with blanks between them are one scalar. -/
def splitScalar : List Char → List Char × List Char
  | [] => ([], [])
  | c :: rest =>
    if isWordChar c || c == '.' || (isBlank c && wordFollows rest) then
      match splitScalar rest with
      | (scalar, rest) => (c :: scalar, rest)
    else ([], c :: rest)

end CrystalModel.Document.Toml
