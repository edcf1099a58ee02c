import CrystalModel.Document.Basic
import CrystalModel.Numeric.Notation
import CrystalModel.Numeric.Reading

/-! # Documents in JSON

Reading and writing of documents. Doubles are written with the fewest digits that read back,
and as texts where the notation has no number for them. -/
namespace CrystalModel.Document.Json

def isSpace (c : Char) : Bool := c == ' ' || c == '\t' || c == '\n' || c == '\r'

def skipSpace (cs : List Char) : List Char := cs.dropWhile isSpace

def hexValue (c : Char) : Nat :=
  if c.isDigit then c.toNat - '0'.toNat
  else if 'a' ≤ c then c.toNat - 'a'.toNat + 10
  else c.toNat - 'A'.toNat + 10

def hexWord (cs : List Char) : Nat := cs.foldl (fun n c => 16 * n + hexValue c) 0

def unescape : Char → Char
  | 'n' => '\n'
  | 't' => '\t'
  | 'r' => '\r'
  | 'b' => '\x08'
  | 'f' => '\x0c'
  | c => c

def joinSurrogates (high low : Nat) : Char :=
  Char.ofNat (0x10000 + (high - 0xD800) * 0x400 + (low - 0xDC00))

def isHighSurrogate (n : Nat) : Bool := 0xD800 ≤ n && n < 0xDC00

def readText (done : List Char) : List Char → Option (String × List Char)
  | '"' :: rest => some (String.ofList done.reverse, rest)
  | '\\' :: 'u' :: a :: b :: c :: d :: '\\' :: 'u' :: e :: f :: g :: h :: rest =>
    let first := hexWord [a, b, c, d]
    let second := hexWord [e, f, g, h]
    if isHighSurrogate first then readText (joinSurrogates first second :: done) rest
    else if isHighSurrogate second then
      readText (Char.ofNat first :: done) ('\\' :: 'u' :: e :: f :: g :: h :: rest)
    else readText (Char.ofNat second :: Char.ofNat first :: done) rest
  | '\\' :: 'u' :: a :: b :: c :: d :: rest =>
    readText (Char.ofNat (hexWord [a, b, c, d]) :: done) rest
  | '\\' :: c :: rest => readText (unescape c :: done) rest
  | c :: rest => readText (c :: done) rest
  | [] => none
termination_by cs => cs.length

/-- A number; one with a fraction or an exponent is real, and so are negative zero and whole
numbers that take more than 64 bits. -/
def readNumber (cs : List Char) : Document × List Char :=
  let negative := cs.head? == some '-'
  let cs := if negative then cs.drop 1 else cs
  let whole := cs.takeWhile Char.isDigit
  let rest := cs.dropWhile Char.isDigit
  let (fraction, rest) := match rest with
    | '.' :: rest => (rest.takeWhile Char.isDigit, rest.dropWhile Char.isDigit)
    | rest => ([], rest)
  let (exponent, rest) := match rest with
    | e :: rest =>
      if e == 'e' || e == 'E' then
        let down := rest.head? == some '-'
        let rest := if down || rest.head? == some '+' then rest.drop 1 else rest
        let n : Int := Numeric.digitsValue (rest.takeWhile Char.isDigit)
        (some (if down then -n else n), rest.dropWhile Char.isDigit)
      else (none, e :: rest)
    | [] => (none, [])
  let digits := Numeric.digitsValue (whole ++ fraction)
  let whole : Int := if negative then -(digits : Int) else digits
  if fraction.isEmpty && exponent.isNone && !(negative && digits == 0) &&
      Int64.minValue.toInt ≤ whole && whole < UInt64.size then
    (.integer whole, rest)
  else
    let x := Numeric.scaledDecimal digits (exponent.getD 0 - fraction.length)
    (.real (if negative then -x else x), rest)

mutual

/-- A value, its parts nested at most `depth` deep in steps of reading. -/
def readValue : Nat → List Char → Option (Document × List Char)
  | 0, _ => none
  | depth + 1, cs => match skipSpace cs with
    | 'n' :: 'u' :: 'l' :: 'l' :: rest => some (.null, rest)
    | 't' :: 'r' :: 'u' :: 'e' :: rest => some (.flag true, rest)
    | 'f' :: 'a' :: 'l' :: 's' :: 'e' :: rest => some (.flag false, rest)
    | '"' :: rest => (readText [] rest).map fun (s, rest) => (.text s, rest)
    | '[' :: rest => match skipSpace rest with
      | ']' :: rest => some (.list [], rest)
      | rest => (readItems depth rest).map fun (items, rest) => (.list items, rest)
    | '\x7b' :: rest => match skipSpace rest with
      | '\x7d' :: rest => some (.table [], rest)
      | rest => (readEntries depth rest).map fun (entries, rest) => (.table entries, rest)
    | rest => some (readNumber rest)

def readItems : Nat → List Char → Option (List Document × List Char)
  | 0, _ => none
  | depth + 1, cs => do
    let (item, rest) ← readValue depth cs
    match skipSpace rest with
    | ',' :: rest => (readItems depth rest).map fun (items, rest) => (item :: items, rest)
    | ']' :: rest => some ([item], rest)
    | _ => none

def readEntries : Nat → List Char → Option (List (String × Document) × List Char)
  | 0, _ => none
  | depth + 1, cs => match skipSpace cs with
    | '"' :: rest => do
      let (key, rest) ← readText [] rest
      match skipSpace rest with
      | ':' :: rest =>
        let (value, rest) ← readValue depth rest
        match skipSpace rest with
        | ',' :: rest =>
          (readEntries depth rest).map fun (entries, rest) => ((key, value) :: entries, rest)
        | '\x7d' :: rest => some ([(key, value)], rest)
        | _ => none
      | _ => none
    | _ => none

end

def read? (line : String) : Option Document :=
  (readValue (line.length + 1) line.toList).map (·.1)

def hexDigit (n : Nat) : Char := Char.ofNat (if n < 10 then 48 + n else 87 + n)

def writeChar (c : Char) : List Char :=
  if c = '"' then ['\\', '"']
  else if c = '\\' then ['\\', '\\']
  else if c.toNat < 32 then ['\\', 'u', '0', '0', hexDigit (c.toNat / 16), hexDigit (c.toNat % 16)]
  else [c]

def quoted (s : String) : String := "\"" ++ String.ofList (s.toList.flatMap writeChar) ++ "\""

def writeReal (x : Float) : String :=
  if x.isFinite then Numeric.pointed x else quoted (Numeric.plain x)

mutual

def write : Document → String
  | .null => "null"
  | .flag b => if b then "true" else "false"
  | .integer n => toString n
  | .real x => writeReal x
  | .text s => quoted s
  | .list items => "[" ++ writeItems items ++ "]"
  | .table entries => "\x7b" ++ writeEntries entries ++ "\x7d"
  | .unreadable => "null"

def writeItems : List Document → String
  | [] => ""
  | [item] => write item
  | item :: items => write item ++ "," ++ writeItems items

def writeEntries : List (String × Document) → String
  | [] => ""
  | [(key, value)] => quoted key ++ ":" ++ write value
  | (key, value) :: entries => quoted key ++ ":" ++ write value ++ "," ++ writeEntries entries

end

end CrystalModel.Document.Json
