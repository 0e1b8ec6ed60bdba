import Concord.Text.Basic

/-!
Member reads: `object.member` at a place of a script. A file's reads of one object are listed once
for each member, at its first place. Scripts are parsed by whatever parser is at hand; nothing is
taken for granted of what it tells.
-/
namespace Concord.Access

open Concord.Text

/-- A read of a member of a plain name; `offset` is where the member's name starts. -/
structure Read where
  object : List Char
  member : List Char
  offset : Nat
  deriving DecidableEq, Repr

/-- A parser of scripts. It has no answer for a text that does not parse. -/
class ScriptParser where
  /-- The members that a script reads from plain names. -/
  memberReads? : List Char → Option (List Read)
  /-- The properties of the object that an expression is, each with its key if that is a name or a
  string. -/
  propertyKeys? : List Char → Option (List (Option (List Char)))

/-- A member read from an object and the line it stands on. -/
structure Member where
  name : String
  line : Nat
  deriving DecidableEq, Repr

/-- The first read of each member that is not in `seen`. -/
def firstReads (seen : List (List Char)) : List (Nat × List Char) → List (Nat × List Char)
  | [] => []
  | hit :: rest =>
    if seen.contains hit.2 then firstReads seen rest else hit :: firstReads (hit.2 :: seen) rest

/-- The members of `hits` in order of their first places. -/
def members (text : List Char) (hits : List (Nat × List Char)) : List Member :=
  (firstReads [] (hits.mergeSort fun a b => a.1 ≤ b.1)).map fun (offset, member) =>
    ⟨String.ofList member, lineAt text offset⟩

end Concord.Access
