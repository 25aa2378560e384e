import CSharpGen.Toml.Statement

/-!
# TOML documents

A document is the table that its statements make one after the other.
-/

namespace CSharpGen.Toml

/-- The document so far, and the path of keys to the table that pairs go to. -/
structure Document where
  root : Entries := []
  current : List String := []
  deriving Repr, Inhabited

namespace Document

def perform (d : Document) : Statement → Option Document
  | .pair key value => do
    let root ← extendAt false (insertPair key.path key.key value) d.current .header d.root
    return { d with root }
  | .header key => do
    return { root := ← openTable key.path key.key .header d.root, current := key.path ++ [key.key] }
  | .arrayHeader key => do
    return { root := ← openElement key.path key.key .header d.root
             current := key.path ++ [key.key] }

end Document

/-- The table that a text denotes. -/
def parse? (text : String) : Option Value := do
  let statements ← Statement.ofTokens? (← Token.ofDocument? text)
  let document ← statements.foldlM Document.perform {}
  return .table .header document.root

end CSharpGen.Toml
