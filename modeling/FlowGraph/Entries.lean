/-
Tables keyed by text.

A table is a list of entries in ascending order of their keys, each key once.  Texts are
ordered by code point, which is also the order of their bytes in UTF-8.  The operations
keep the order, so a table built by `insert` from `[]` is sorted whatever was put in.
-/

namespace FlowGraph

/-- Entries in ascending order of their keys. -/
abbrev Entries (α : Type) := List (String × α)

namespace Entries

variable {α β : Type}

/-- The value under a key. -/
def find? (key : String) : Entries α → Option α
  | [] => none
  | (k, v) :: rest => if k = key then some v else find? key rest

/-- Some entry has the key. -/
def contains (key : String) (es : Entries α) : Bool := (find? key es).isSome

/-- Put a value under a key, in place of the one that is there. -/
def insert (key : String) (value : α) : Entries α → Entries α
  | [] => [(key, value)]
  | (k, v) :: rest =>
    if key < k then (key, value) :: (k, v) :: rest
    else if k = key then (key, value) :: rest
    else (k, v) :: insert key value rest

/-- Put a value under a key unless one is there. -/
def insertNew (key : String) (value : α) (es : Entries α) : Entries α :=
  if contains key es then es else insert key value es

/-- Drop the entry of a key. -/
def erase (key : String) (es : Entries α) : Entries α := es.filter fun e => e.1 ≠ key

/-- Change the value under a key where it is. -/
def adjust (key : String) (f : α → α) (es : Entries α) : Entries α :=
  es.map fun e => if e.1 = key then (e.1, f e.2) else e

/-- The entries of a list, the last of several under one key. -/
def ofList (es : List (String × α)) : Entries α := es.foldl (fun t e => insert e.1 e.2 t) []

/-- All entries of `es`, and those of `newer` in place of them. -/
def union (es newer : Entries α) : Entries α := newer.foldl (fun t e => insert e.1 e.2 t) es

def keys (es : Entries α) : List String := es.map Prod.fst

def values (es : Entries α) : List α := es.map Prod.snd

/-- Change every value and keep the keys. -/
def mapValues (f : α → β) (es : Entries α) : Entries β := es.map fun e => (e.1, f e.2)

end Entries

end FlowGraph
