/-! # Catalogs

Entries by key, in the order of the keys. Keys are compared character by character. -/
namespace CrystalModel

abbrev Catalog (α : Type) := List (String × α)

namespace Catalog

variable {α : Type}

def empty : Catalog α := []

def insert (key : String) (value : α) : Catalog α → Catalog α
  | [] => [(key, value)]
  | (k, v) :: rest =>
    if key < k then (key, value) :: (k, v) :: rest
    else if key = k then (key, value) :: rest
    else (k, v) :: insert key value rest

def get? (c : Catalog α) (key : String) : Option α := c.lookup key

def keys (c : Catalog α) : List String := c.map (·.1)

def values (c : Catalog α) : List α := c.map (·.2)

def merge (c newer : Catalog α) : Catalog α :=
  newer.foldl (fun c (key, value) => insert key value c) c

end Catalog

end CrystalModel
