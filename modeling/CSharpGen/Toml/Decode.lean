import CSharpGen.Toml.Number
import CSharpGen.Toml.Value

/-!
# Decoding values

Decoders turn values into the data that a document describes. A record of named fields is given as
a table whose keys are all known, or as an array of the fields in their order; fields beyond the
last one are ignored there.
-/

namespace CSharpGen.Toml

abbrev Decoder (α : Type) := Value → Option α

namespace Decoder

def text : Decoder String
  | .text t => some t
  | _ => none

/-- A whole number that 64 bits hold with its sign. -/
def integer : Decoder Int
  | .number word => (Number.whole? word.toList).filter fun n =>
    decide (Int64.minValue.toInt ≤ n ∧ n ≤ Int64.maxValue.toInt)
  | _ => none

def boolean : Decoder Bool
  | .boolean b => some b
  | _ => none

def list {α : Type} (item : Decoder α) : Decoder (List α)
  | .array _ items => items.mapM item
  | _ => none

/-- One of several names, alone or as the only key of a table, with nothing under it. -/
def choice {α : Type} (ofName? : String → Option α) : Decoder α
  | .text name => ofName? name
  | .table _ [(name, .table _ [])] | .table _ [(name, .array _ [])] => ofName? name
  | _ => none

end Decoder

/-- The fields of a record as they were given. -/
structure Fields where
  entries : Entries
  /-- Whether the fields were given by their order and not by their names. -/
  positional : Bool

namespace Fields

/-- The fields of a value, of which only the given names are known. -/
def of (names : List String) : Value → Option Fields
  | .table _ entries =>
    if entries.all fun entry => names.contains entry.1 then some ⟨entries, false⟩ else none
  | .array _ items => some ⟨names.zip items, true⟩
  | _ => none

variable {α : Type}

/-- A field that has to be given. -/
def required (f : Fields) (name : String) (decode : Decoder α) : Option α :=
  (f.entries.lookup name).bind decode

/-- A field with a value for when it is left out. -/
def defaulted (f : Fields) (name : String) (value : α) (decode : Decoder α) : Option α :=
  match f.entries.lookup name with
  | none => some value
  | some v => decode v

/-- A field that a table may leave out. -/
def optional (f : Fields) (name : String) (decode : Decoder α) : Option (Option α) :=
  match f.entries.lookup name with
  | none => if f.positional then none else some none
  | some v => (decode v).map some

/-- A flag that is off when it is left out. -/
def flag (f : Fields) (name : String) : Option Bool := f.defaulted name false Decoder.boolean

/-- A list of texts that is empty when it is left out. -/
def texts (f : Fields) (name : String) : Option (List String) :=
  f.defaulted name [] (Decoder.list Decoder.text)

def list (f : Fields) (name : String) (item : Decoder α) : Option (List α) :=
  f.defaulted name [] (Decoder.list item)

end Fields

end CSharpGen.Toml
