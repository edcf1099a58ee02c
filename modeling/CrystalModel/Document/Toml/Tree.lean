import CrystalModel.Document.Basic

/-! # Tables under construction

The statements of a document in TOML build up one tree. A table may be opened once by its header;
tables that arise from dotted keys or inside values are closed to headers. -/
namespace CrystalModel.Document.Toml

/-- How a table came about. -/
inductive Origin where
  | header
  | parent
  | dotted
  | inline
deriving DecidableEq, Repr

/-- A document under construction. Tables that headers may still extend are told from closed
values, and the last table of a growing list comes first. -/
inductive Tree where
  | closed (value : Document)
  | table (origin : Origin) (entries : List (String × Tree))
  | tables (reversed : List (List (String × Tree)))

abbrev Entries := List (String × Tree)

def put (entries : Entries) (key : String) (tree : Tree) : Entries :=
  match entries with
  | [] => [(key, tree)]
  | (k, t) :: rest => if k = key then (k, tree) :: rest else (k, t) :: put rest key tree

/-- Changes the table under a path of headers; missing tables are made on the way. -/
def alongHeaders (change : Entries → Option Entries) : List String → Entries → Option Entries
  | [], entries => change entries
  | key :: path, entries =>
    match entries.lookup key with
    | none => do some (put entries key (.table .parent (← alongHeaders change path [])))
    | some (.table .inline _) => none
    | some (.table origin inner) => do
      some (put entries key (.table origin (← alongHeaders change path inner)))
    | some (.tables (last :: before)) => do
      some (put entries key (.tables ((← alongHeaders change path last) :: before)))
    | some _ => none

/-- Assigns along the parts of a dotted key. They lead through tables that no header has opened
and through the last tables of lists, but only a table made by dotted keys takes the value. -/
def assignAlong (value : Tree) (takesValue : Bool) : List String → Entries → Option Entries
  | [], _ => none
  | [key], entries =>
    if takesValue && (entries.lookup key).isNone then some (put entries key value) else none
  | key :: path, entries =>
    match entries.lookup key with
    | none => do some (put entries key (.table .dotted (← assignAlong value true path [])))
    | some (.table .dotted inner) => do
      some (put entries key (.table .dotted (← assignAlong value true path inner)))
    | some (.table .parent inner) => do
      some (put entries key (.table .parent (← assignAlong value false path inner)))
    | some (.tables (last :: before)) => do
      some (put entries key (.tables ((← assignAlong value false path last) :: before)))
    | some _ => none

def assign (value : Tree) (path : List String) (entries : Entries) : Option Entries :=
  assignAlong value true path entries

def openTable (key : String) (entries : Entries) : Option Entries :=
  match entries.lookup key with
  | none => some (put entries key (.table .header []))
  | some (.table .parent inner) => some (put entries key (.table .header inner))
  | some _ => none

def openElement (key : String) (entries : Entries) : Option Entries :=
  match entries.lookup key with
  | none => some (put entries key (.tables [[]]))
  | some (.tables elements) => some (put entries key (.tables ([] :: elements)))
  | some _ => none

mutual

def Tree.toDocument : Tree → Document
  | .closed value => value
  | .table _ entries => .table (entriesToDocument entries)
  | .tables reversed => .list (tablesToDocument reversed [])

def entriesToDocument : List (String × Tree) → List (String × Document)
  | [] => []
  | (key, tree) :: rest => (key, tree.toDocument) :: entriesToDocument rest

def tablesToDocument : List (List (String × Tree)) → List Document → List Document
  | [], done => done
  | entries :: rest, done => tablesToDocument rest (.table (entriesToDocument entries) :: done)

end

end CrystalModel.Document.Toml
