-- TOML values, and how tables come to be. A table can be opened once, by its header, and its entries can
-- be set once. A table that is only on the way to another one may still be opened; one that is written in
-- braces is closed.
namespace RouteTypes

/-- What has made a table. -/
inductive TableOrigin where
  /-- It is written in braces. -/
  | inline
  /-- It has a header of its own. -/
  | header
  /-- The header of a table in it. -/
  | passed
  /-- A key with dots. -/
  | dotted
deriving DecidableEq, Repr

inductive Toml where
  | string (text : String)
  | integer (value : Int)
  | float (literal : String)
  | boolean (value : Bool)
  | dateTime (literal : String)
  | array (items : List Toml)
  | table (origin : TableOrigin) (entries : List (String × Toml))
  /-- Tables that share a header. -/
  | tables (items : List Toml)
deriving Repr, Inhabited

namespace Toml

/-- The entries of a table in the order of the text. -/
abbrev Entries := List (String × Toml)

namespace Entries

def get? (key : String) (entries : Entries) : Option Toml := entries.lookup key

/-- Puts a value in the place of the one with that key, or else at the end. -/
def put (key : String) (value : Toml) : Entries → Entries
  | [] => [(key, value)]
  | entry :: rest =>
    if entry.1 = key then (key, value) :: rest else entry :: put key value rest

/-! ## Keys -/

/-- Changes the last of several tables. -/
def inLast (change : Entries → Option Entries) (items : List Toml) : Option (List Toml) :=
  match items.getLast? with
  | some (.table origin entries) => do
    return items.dropLast ++ [.table origin (← change entries)]
  | _ => none

/-- Sets the entry with a key of several parts. All but the last name tables, which come to be that
way; a table with a header is not changed from elsewhere. -/
def insertAt (value : Toml) : List String → Entries → Option Entries
  | [], _ => none
  | [key], entries =>
    if (get? key entries).isSome then none else some (entries ++ [(key, value)])
  | key :: next :: rest, entries =>
    match get? key entries with
    | none => do
      return entries ++ [(key, .table .dotted (← insertAt value (next :: rest) []))]
    | some (.table origin inner) =>
      if origin = .dotted ∨ (origin = .passed ∧ rest ≠ []) then do
        return put key (.table origin (← insertAt value (next :: rest) inner)) entries
      else none
    | some (.tables items) =>
      if rest = [] then none
      else do return put key (.tables (← inLast (insertAt value (next :: rest)) items)) entries
    | some _ => none

/-! ## Headers -/

/-- Changes the table that a path leads to. Tables that are not there yet come to be; of several tables
the last is meant. -/
def within (change : Entries → Option Entries) : List String → Entries → Option Entries
  | [], entries => change entries
  | key :: rest, entries =>
    match get? key entries with
    | none => do return entries ++ [(key, .table .passed (← within change rest []))]
    | some (.table origin inner) =>
      if origin = .inline then none
      else do return put key (.table origin (← within change rest inner)) entries
    | some (.tables items) => do
      return put key (.tables (← inLast (within change rest) items)) entries
    | some _ => none

/-- Opens the table with that key. -/
def openTable (key : String) (entries : Entries) : Option Entries :=
  match get? key entries with
  | none => some (entries ++ [(key, .table .header [])])
  | some (.table .passed inner) => some (put key (.table .header inner) entries)
  | some _ => none

/-- Adds a table to those with that key. -/
def addTable (key : String) (entries : Entries) : Option Entries :=
  match get? key entries with
  | none => some (entries ++ [(key, .tables [.table .header []])])
  | some (.tables items) => some (put key (.tables (items ++ [.table .header []])) entries)
  | some _ => none

end Entries

end Toml

end RouteTypes
