/-!
# Accessibility
-/

namespace CSharpGen

inductive Access where
  | «public» | internal | «protected» | «private» | protectedInternal | privateProtected
  deriving DecidableEq, Repr, Inhabited

namespace Access

/-- The keywords of a declaration. -/
def keywords : Access → String
  | .public => "public"
  | .internal => "internal"
  | .protected => "protected"
  | .private => "private"
  | .protectedInternal => "protected internal"
  | .privateProtected => "private protected"

/-- The name in a manifest. -/
def name : Access → String
  | .public => "public"
  | .internal => "internal"
  | .protected => "protected"
  | .private => "private"
  | .protectedInternal => "protected-internal"
  | .privateProtected => "private-protected"

def ofName? : String → Option Access
  | "public" => some .public
  | "internal" => some .internal
  | "protected" => some .protected
  | "private" => some .private
  | "protected-internal" => some .protectedInternal
  | "private-protected" => some .privateProtected
  | _ => none

theorem ofName?_name (a : Access) : ofName? a.name = some a := by cases a <;> rfl

/-- The keywords of an optional accessibility. Without one nothing is written. -/
def keywordsOf (access : Option Access) : String := access.elim "" keywords

end Access

end CSharpGen
