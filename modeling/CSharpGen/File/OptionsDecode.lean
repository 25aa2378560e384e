import CSharpGen.Error
import CSharpGen.File.Options
import CSharpGen.Toml.Decode
import CSharpGen.Toml.Document

/-!
# Options in TOML

Each option that a document leaves out has its default.
-/

namespace CSharpGen.FileOptions

open Toml in
def decode : Decoder FileOptions := fun v => do
  let f ← Fields.of ["indent", "namespace-style", "nullable", "sort-properties"] v
  let default : FileOptions := {}
  return {
    indent := ← f.defaulted "indent" default.indent (.choice Indent.ofName?)
    namespaceStyle := ← f.defaulted "namespace-style" default.namespaceStyle
      (.choice NamespaceStyle.ofName?)
    nullable := ← f.defaulted "nullable" default.nullable
      fun v => (Decoder.choice NullableContext.ofName? v).map some
    sortProperties := ← f.defaulted "sort-properties" default.sortProperties Decoder.boolean }

/-- Reads the options of a document. -/
def parse (text : String) : Except Error FileOptions :=
  match (Toml.parse? text).bind decode with
  | some options => .ok options
  | none => .error .malformedOptions

end CSharpGen.FileOptions
