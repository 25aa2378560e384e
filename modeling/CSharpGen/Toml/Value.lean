/-!
# TOML values

The values of a TOML document. Each table remembers how it came to be, because that decides how
later lines of the document may extend it.
-/

namespace CSharpGen.Toml

/-- How a table came to be. -/
inductive Origin where
  /-- Written in braces, and complete. -/
  | inline
  /-- Named by a table header, or the document itself. -/
  | header
  /-- On the way to a table that a header names. -/
  | path
  /-- On the way to a value that a dotted key names. -/
  | dotted
  deriving DecidableEq, Repr, Inhabited

/-- Numbers, dates and times stay as they were written: what a number denotes is worked out where a
field takes it, and nothing takes a date or a time. -/
inductive Value where
  | text (content : String)
  | number (word : String)
  | moment (word : String)
  | boolean (b : Bool)
  /-- An array, made by table headers or written in brackets. -/
  | array (ofHeaders : Bool) (items : List Value)
  | table (origin : Origin) (entries : List (String × Value))
  deriving Repr, Inhabited

/-- The entries of a table, in the order of their lines. -/
abbrev Entries := List (String × Value)

mutual

/-- How deep arrays and tables are nested in a value. -/
def Value.depth : Value → Nat
  | .text _ | .number _ | .moment _ | .boolean _ => 0
  | .array _ items => Value.depthOfItems items + 1
  | .table _ entries => Value.depthOfEntries entries + 1

def Value.depthOfItems : List Value → Nat
  | [] => 0
  | v :: rest => max v.depth (Value.depthOfItems rest)

def Value.depthOfEntries : List (String × Value) → Nat
  | [] => 0
  | entry :: rest => max (Value.depthOfEntry entry) (Value.depthOfEntries rest)

def Value.depthOfEntry : String × Value → Nat
  | (_, v) => v.depth

end

end CSharpGen.Toml
