import CSharpGen.File.Basic

/-!
# Edits and their replies

Files are put together by edits, which are data. An edit of a declaration gives the edited
declaration, a reply, and what it registers for the preamble of the file. What is registered does
not depend on the preamble, so all declarations of a file can share one.
-/

namespace CSharpGen

/-- The answer to one edit. The edit that only looks is answered by the declaration itself. -/
inductive Reply where
  | done
  | refused (error : Error)
  /-- There is no member for the edit to act on. -/
  | absent
  | property (p : Property)
  | method (m : Method)
  | constructor (c : Constructor)
  | event (e : Event)
  | delegate (d : Delegate)
  | enumValue (v : EnumValue)
  | enum (e : Enum)
  | record (r : Record)
  | class (c : Class)
  | file (f : File) (p : Preamble)
  /-- The answers to the edits of a new member. -/
  | member (replies : List Reply)
  /-- The answers to the edits of a backing field, after the field as it was found. -/
  | backing (field : Property) (replies : List Reply)
  /-- The answers to the edits of a copy, before the copy and the preamble that it left. -/
  | copy (replies : List Reply) (f : File) (p : Preamble)

/-- An edited declaration with the answers to its edits and what they registered. -/
structure Edited (ρ α : Type) where
  value : α
  reply : ρ
  registered : List Registration := []

namespace Edited

variable {α ε : Type}

def done (value : α) : Edited Reply α := { value, reply := .done }

/-- An edit that leaves the declaration as it is when it is refused. -/
def attempt (old : α) : Except Error α → Edited Reply α
  | .ok value => done value
  | .error error => { value := old, reply := .refused error }

/-- An edit that registers something for the preamble. -/
def registering (value : α) (r : Registration) : Edited Reply α :=
  { value, reply := .done, registered := [r] }

/-- All edits in order, also after one that was refused. -/
def each (perform : α → ε → Edited Reply α) : α → List ε → Edited (List Reply) α
  | value, [] => { value, reply := [] }
  | value, edit :: rest =>
    let first := perform value edit
    let others := each perform first.value rest
    { value := others.value
      reply := first.reply :: others.reply
      registered := first.registered ++ others.registered }

/-- Puts an edited member into the declaration that holds it. -/
def into {β : Type} (e : Edited (List Reply) α) (add : α → β) : Edited Reply β :=
  { value := add e.value, reply := .member e.reply, registered := e.registered }

end Edited

end CSharpGen
