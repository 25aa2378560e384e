import CSharpGen.Toml.Value

/-!
# Extending tables

Where a line of a document may put a value. A key is written once; a table that was written in
braces is complete; dotted keys extend only tables that dotted keys made, and headers name a table
at most once.
-/

namespace CSharpGen.Toml

namespace Entries

/-- Gives an existing key another value, in its place. -/
def replace (key : String) (v : Value) (entries : Entries) : Entries :=
  entries.map fun entry => if entry.1 = key then (key, v) else entry

/-- Gives a new key its value. -/
def add? (key : String) (v : Value) (entries : Entries) : Option Entries :=
  if (entries.lookup key).isSome then none else some (entries ++ [(key, v)])

end Entries

/-- What changes a table, given how the table came to be. -/
abbrev Extension := Origin → Entries → Option Entries

/-- Changes the last table of an array that headers made. -/
def extendLast (extension : Extension) (items : List Value) : Option (List Value) :=
  match items.reverse with
  | .table origin entries :: before =>
    (extension origin entries).map fun entries => (.table origin entries :: before).reverse
  | _ => none

/-- Follows a path of keys and changes the table at its end. Tables that are missing are made on the
way, by a dotted key or for a header; an array of tables stands for its last table. -/
def extendAt (dotted : Bool) (extension : Extension) : List String → Extension
  | [], origin, entries => extension origin entries
  | key :: path, _, entries =>
    match entries.lookup key with
    | none =>
      let origin := if dotted then Origin.dotted else .path
      (extendAt dotted extension path origin []).map fun inner =>
        entries ++ [(key, .table origin inner)]
    | some (.table origin inner) =>
      if origin == .inline || (dotted && origin == .header) then none
      else (extendAt dotted extension path origin inner).map fun inner =>
        Entries.replace key (.table origin inner) entries
    | some (.array true items) =>
      (extendLast (extendAt dotted extension path) items).map fun items =>
        Entries.replace key (.array true items) entries
    | some _ => none

/-- Writes a value under a dotted key, into a table that such keys made when there are several. -/
def insertPair (path : List String) (key : String) (v : Value) : Extension :=
  extendAt true
    (fun origin entries =>
      if (origin == .dotted) == path.isEmpty then none else Entries.add? key v entries)
    path

/-- Opens the table that a header names. A table that stands on the way to others becomes named. -/
def openTable (path : List String) (key : String) : Extension :=
  extendAt false
    (fun _ entries =>
      match entries.lookup key with
      | none => some (entries ++ [(key, .table .header [])])
      | some (.table .path inner) => some (Entries.replace key (.table .header inner) entries)
      | some _ => none)
    path

/-- Adds a table to the array that a header names. -/
def openElement (path : List String) (key : String) : Extension :=
  extendAt false
    (fun _ entries =>
      match entries.lookup key with
      | none => some (entries ++ [(key, .array true [.table .header []])])
      | some (.array true items) =>
        some (Entries.replace key (.array true (items ++ [.table .header []])) entries)
      | some _ => none)
    path

/-- The table written in braces around the pairs. -/
def inlineTable? (pairs : List (List String × String × Value)) : Option Value :=
  (pairs.foldlM (fun entries (path, key, v) => insertPair path key v .header entries) []).map
    (.table .inline)

end CSharpGen.Toml
