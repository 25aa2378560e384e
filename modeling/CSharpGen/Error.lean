/-!
# Errors

The reasons why a declaration, a manifest or a set of options is refused, with the wording, the
diagnostic code and the advice of each.
-/

namespace CSharpGen

inductive Error where
  /-- A declaration was written before one of its parts was given. -/
  | missingField (member field : String)
  | duplicateGeneric (owner name : String)
  | emptyIdentifier (place : String)
  /-- Parameter documentation was given to a member that inherits its documentation. -/
  | inheritedDocumentation (member : String)
  | malformedOptions
  | malformedManifest
  | invalidMember (member reason : String)
  deriving DecidableEq, Repr, Inhabited

namespace Error

def message : Error → String
  | missingField member field => s!"no {field} specified for '{member}'"
  | duplicateGeneric owner name => s!"generic parameter '{name}' already exists on '{owner}'"
  | emptyIdentifier place => s!"empty identifier for {place}"
  | inheritedDocumentation member =>
    s!"'{member}' inherits its documentation, parameter docs cannot be added"
  | malformedOptions => "failed to parse options"
  | malformedManifest => "failed to parse manifest"
  | invalidMember member reason => s!"invalid member '{member}': {reason}"

def code : Error → String
  | missingField .. => "csforge::missing_field"
  | duplicateGeneric .. => "csforge::duplicate_generic"
  | emptyIdentifier .. => "csforge::empty_identifier"
  | inheritedDocumentation .. => "csforge::invalid_documentation"
  | malformedOptions => "csforge::options"
  | malformedManifest => "csforge::parse_error"
  | invalidMember .. => "csforge::invalid_member"

/-- What to do about an error, where there is one thing to do. -/
def advice? : Error → Option String
  | missingField member field => some s!"set the {field} of '{member}' before building"
  | duplicateGeneric .. =>
    some "generic parameters of one declaration need distinct names"
  | inheritedDocumentation .. =>
    some "use a summary instead of inheritdoc to document parameters"
  | _ => none

end Error

end CSharpGen
