import CSharpGen.File.OptionsDecode
import CSharpGen.Manifest.Basic

/-!
# Manifests in TOML

The names and the types of the fields of a manifest. Fields with other names are refused.
-/

namespace CSharpGen

open Toml (Decoder Fields)

def GenericEntry.decode : Decoder GenericEntry := fun v => do
  let f ← Fields.of ["name", "constraints"] v
  return { name := ← f.required "name" .text, constraints := ← f.texts "constraints" }

def ParameterEntry.decode : Decoder ParameterEntry := fun v => do
  let f ← Fields.of ["type", "name", "default", "doc"] v
  return {
    type := ← f.required "type" .text
    name := ← f.optional "name" .text
    default := ← f.optional "default" .text
    doc := ← f.optional "doc" .text }

/-- The accessibility of a declaration, which it may leave out. -/
def accessField (f : Fields) : Option (Option Access) :=
  f.optional "access" (.choice Access.ofName?)

def PropertyEntry.decode : Decoder PropertyEntry := fun v => do
  let f ← Fields.of ["name", "type", "access", "static", "accessors", "getter", "setter",
    "summary", "attributes"] v
  return {
    name := ← f.required "name" .text
    type := ← f.required "type" .text
    access := ← accessField f
    isStatic := ← f.flag "static"
    accessors := ← f.defaulted "accessors" .getSet (.choice AccessorChoice.ofName?)
    getter := ← f.optional "getter" .text
    setter := ← f.optional "setter" .text
    summary := ← f.optional "summary" .text
    attributes := ← f.texts "attributes" }

def FieldEntry.decode : Decoder FieldEntry := fun v => do
  let f ← Fields.of ["name", "type", "access", "static", "const", "readonly", "value", "summary",
    "attributes"] v
  return {
    name := ← f.required "name" .text
    type := ← f.required "type" .text
    access := ← accessField f
    isStatic := ← f.flag "static"
    isConst := ← f.flag "const"
    isReadonly := ← f.flag "readonly"
    value := ← f.optional "value" .text
    summary := ← f.optional "summary" .text
    attributes := ← f.texts "attributes" }

def MethodEntry.decode : Decoder MethodEntry := fun v => do
  let f ← Fields.of ["name", "returns", "access", "static", "async", "virtual", "override",
    "abstract", "generics", "parameters", "body", "summary", "inherit-doc", "attributes"] v
  return {
    name := ← f.required "name" .text
    returns := ← f.optional "returns" .text
    access := ← accessField f
    isStatic := ← f.flag "static"
    isAsync := ← f.flag "async"
    isVirtual := ← f.flag "virtual"
    isOverride := ← f.flag "override"
    isAbstract := ← f.flag "abstract"
    generics := ← f.list "generics" GenericEntry.decode
    parameters := ← f.list "parameters" ParameterEntry.decode
    body := ← f.texts "body"
    summary := ← f.optional "summary" .text
    inheritDoc := ← f.flag "inherit-doc"
    attributes := ← f.texts "attributes" }

def ConstructorEntry.decode : Decoder ConstructorEntry := fun v => do
  let f ← Fields.of ["access", "parameters", "base", "this", "body", "summary", "attributes"] v
  return {
    access := ← accessField f
    parameters := ← f.list "parameters" ParameterEntry.decode
    base := ← f.optional "base" (.list ParameterEntry.decode)
    this := ← f.optional "this" (.list ParameterEntry.decode)
    body := ← f.texts "body"
    summary := ← f.optional "summary" .text
    attributes := ← f.texts "attributes" }

def EventEntry.decode : Decoder EventEntry := fun v => do
  let f ← Fields.of ["name", "handler", "access", "static", "summary"] v
  return {
    name := ← f.required "name" .text
    handler := ← f.optional "handler" .text
    access := ← accessField f
    isStatic := ← f.flag "static"
    summary := ← f.optional "summary" .text }

/-- Decodes a class whose value is nested at most as deep as the bound. -/
def ClassEntry.decodeWithin : (bound : Nat) → Decoder ClassEntry
  | 0, _ => none
  | bound + 1, v => do
    let f ← Fields.of ["name", "kind", "access", "static", "sealed", "abstract", "partial", "base",
      "interfaces", "attributes", "summary", "generics", "sort-properties", "properties", "fields",
      "methods", "constructors", "events", "classes"] v
    return {
      name := ← f.required "name" .text
      kind := ← f.defaulted "kind" .class (.choice TypeKind.ofName?)
      access := ← accessField f
      isStatic := ← f.flag "static"
      isSealed := ← f.flag "sealed"
      isAbstract := ← f.flag "abstract"
      isPartial := ← f.optional "partial" .boolean
      base := ← f.optional "base" .text
      interfaces := ← f.texts "interfaces"
      attributes := ← f.texts "attributes"
      summary := ← f.optional "summary" .text
      generics := ← f.list "generics" GenericEntry.decode
      sortProperties := ← f.optional "sort-properties" .boolean
      properties := ← f.list "properties" PropertyEntry.decode
      fields := ← f.list "fields" FieldEntry.decode
      methods := ← f.list "methods" MethodEntry.decode
      constructors := ← f.list "constructors" ConstructorEntry.decode
      events := ← f.list "events" EventEntry.decode
      nested := ← f.list "classes" (decodeWithin bound) }

def ClassEntry.decode : Decoder ClassEntry := fun v => decodeWithin v.depth v

def EnumValueEntry.decode : Decoder EnumValueEntry := fun v => do
  let f ← Fields.of ["name", "value", "summary"] v
  return {
    name := ← f.required "name" .text
    value := ← f.optional "value" .integer
    summary := ← f.optional "summary" .text }

def EnumEntry.decode : Decoder EnumEntry := fun v => do
  let f ← Fields.of ["name", "access", "flags", "underlying", "summary", "attributes", "values"] v
  return {
    name := ← f.required "name" .text
    access := ← accessField f
    flags := ← f.flag "flags"
    underlying := ← f.optional "underlying" .text
    summary := ← f.optional "summary" .text
    attributes := ← f.texts "attributes"
    values := ← f.list "values" EnumValueEntry.decode }

def RecordEntry.decode : Decoder RecordEntry := fun v => do
  let f ← Fields.of ["name", "access", "style", "properties", "summary", "attributes"] v
  return {
    name := ← f.required "name" .text
    access := ← accessField f
    style := ← f.defaulted "style" .positional (.choice RecordStyle.ofName?)
    properties := ← f.list "properties" ParameterEntry.decode
    summary := ← f.optional "summary" .text
    attributes := ← f.texts "attributes" }

def DelegateEntry.decode : Decoder DelegateEntry := fun v => do
  let f ← Fields.of ["name", "access", "returns", "generics", "parameters", "summary"] v
  return {
    name := ← f.required "name" .text
    access := ← accessField f
    returns := ← f.optional "returns" .text
    generics := ← f.list "generics" GenericEntry.decode
    parameters := ← f.list "parameters" ParameterEntry.decode
    summary := ← f.optional "summary" .text }

namespace Manifest

def decode : Decoder Manifest := fun v => do
  let f ← Fields.of ["namespace", "imports", "assembly-attributes", "disabled-warnings", "options",
    "classes", "enums", "records", "delegates"] v
  return {
    namespaceName := ← f.optional "namespace" .text
    imports := ← f.texts "imports"
    assemblyAttributes := ← f.texts "assembly-attributes"
    disabledWarnings := ← f.texts "disabled-warnings"
    options := ← f.defaulted "options" {} FileOptions.decode
    classes := ← f.list "classes" ClassEntry.decode
    enums := ← f.list "enums" EnumEntry.decode
    records := ← f.list "records" RecordEntry.decode
    delegates := ← f.list "delegates" DelegateEntry.decode }

/-- Reads the manifest of a document. -/
def parse (text : String) : Except Error Manifest :=
  match (Toml.parse? text).bind decode with
  | some manifest => .ok manifest
  | none => .error .malformedManifest

end Manifest

end CSharpGen
