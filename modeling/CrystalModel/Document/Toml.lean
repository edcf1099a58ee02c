import CrystalModel.Document.Toml.Scalar
import CrystalModel.Document.Toml.Text
import CrystalModel.Document.Toml.Tree

/-! # Documents in TOML

A text is cut into statements, each a table header or an assignment, and the statements build
up the document one after another. -/
namespace CrystalModel.Document.Toml

/-! ## Keys -/

def isBareKeyChar (c : Char) : Bool := c.isAlphanum || c == '-' || c == '_'

def simpleKey : List Char → Option (String × List Char)
  | '"' :: rest => basicText [] rest
  | '\x27' :: rest => literalText [] rest
  | cs =>
    let key := cs.takeWhile isBareKeyChar
    if key.isEmpty then none else some (String.ofList key, cs.dropWhile isBareKeyChar)

def keyParts : Nat → List Char → Option (List String × List Char)
  | 0, _ => none
  | parts + 1, cs => do
    let (key, rest) ← simpleKey (skipBlanks cs)
    match skipBlanks rest with
    | '.' :: rest => (keyParts parts rest).map fun (keys, rest) => (key :: keys, rest)
    | rest => some ([key], rest)

/-- How deep brackets may be nested, and how many parts a key may have. -/
def depthLimit : Nat := 80

def dottedKey (cs : List Char) : Option (List String × List Char) := keyParts depthLimit cs

/-! ## Values -/

mutual

def value : Nat → Nat → List Char → Option (Tree × List Char)
  | 0, _, _ => none
  | steps + 1, room, cs => match cs with
    | '"' :: '"' :: '"' :: rest =>
      (basicLines false [] (skipFirstLine rest)).map fun (s, rest) => (.closed (.text s), rest)
    | '\x27' :: '\x27' :: '\x27' :: rest =>
      (literalLines [] (skipFirstLine rest)).map fun (s, rest) => (.closed (.text s), rest)
    | '"' :: rest => (basicText [] rest).map fun (s, rest) => (.closed (.text s), rest)
    | '\x27' :: rest => (literalText [] rest).map fun (s, rest) => (.closed (.text s), rest)
    | '[' :: rest => match room with
      | 0 => none
      | room + 1 => (items steps room rest).map fun (xs, rest) => (.closed (.list xs), rest)
    | '\x7b' :: rest => match room with
      | 0 => none
      | room + 1 => (members steps room [] rest).map fun (es, rest) => (.table .inline es, rest)
    | cs => match splitScalar cs with
      | (cs, rest) => (scalar cs).map fun v => (.closed v, rest)

def items : Nat → Nat → List Char → Option (List Document × List Char)
  | 0, _, _ => none
  | steps + 1, room, cs => do
    match ← skipFiller false cs with
    | ']' :: rest => some ([], rest)
    | cs =>
      let (item, rest) ← value steps room cs
      match ← skipFiller false rest with
      | ',' :: rest =>
        (items steps room rest).map fun (xs, rest) => (item.toDocument :: xs, rest)
      | ']' :: rest => some ([item.toDocument], rest)
      | _ => none

def members : Nat → Nat → Entries → List Char → Option (Entries × List Char)
  | 0, _, _, _ => none
  | steps + 1, room, entries, cs => do
    match ← skipFiller false cs with
    | '\x7d' :: rest => some (entries, rest)
    | cs =>
      let (path, rest) ← dottedKey cs
      match ← skipFiller false rest with
      | '=' :: rest =>
        let (member, rest) ← value steps room (← skipFiller false rest)
        let entries ← assign member path entries
        match ← skipFiller false rest with
        | ',' :: rest => members steps room entries rest
        | '\x7d' :: rest => some (entries, rest)
        | _ => none
      | _ => none

end

/-! ## Statements -/

structure Draft where
  root : Entries
  header : List String

def Draft.openTable (d : Draft) (path : List String) : Option Draft := do
  let root ← alongHeaders (Toml.openTable (path.getLast?.getD "")) path.dropLast d.root
  some ⟨root, path⟩

def Draft.openElement (d : Draft) (path : List String) : Option Draft := do
  let root ← alongHeaders (Toml.openElement (path.getLast?.getD "")) path.dropLast d.root
  some ⟨root, path⟩

def Draft.assign (d : Draft) (path : List String) (tree : Tree) : Option Draft := do
  let root ← alongHeaders (Toml.assign tree path) d.header d.root
  some ⟨root, d.header⟩

def statement (d : Draft) (cs : List Char) : Option (Draft × List Char) := do
  match cs with
  | '[' :: '[' :: rest =>
    let (path, rest) ← dottedKey rest
    match rest with
    | ']' :: ']' :: rest => some (← d.openElement path, ← endLine false rest)
    | _ => none
  | '[' :: rest =>
    let (path, rest) ← dottedKey rest
    match rest with
    | ']' :: rest => some (← d.openTable path, ← endLine false rest)
    | _ => none
  | cs =>
    let (path, rest) ← dottedKey cs
    match rest with
    | '=' :: rest =>
      let (tree, rest) ← value (rest.length + 1) depthLimit (skipBlanks rest)
      some (← d.assign path tree, ← endLine false rest)
    | _ => none

def statements : Nat → Draft → List Char → Option Draft
  | 0, _, _ => none
  | count + 1, d, cs => do
    match ← skipFiller false cs with
    | [] => some d
    | cs =>
      let (d, rest) ← statement d cs
      statements count d rest

/-- A byte order mark in front is skipped. -/
def withoutMark : List Char → List Char
  | '\ufeff' :: rest => rest
  | cs => cs

def read? (text : String) : Option Document := do
  let cs := withoutMark text.toList
  let d ← statements (cs.length + 1) ⟨[], []⟩ cs
  some (.table (entriesToDocument d.root))

end CrystalModel.Document.Toml
