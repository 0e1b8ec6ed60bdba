import Concord.Access.Projection
import Concord.Access.Tolerant

/-!
What a file reads and what a projection supplies. Both are told from the parsed script if it parses,
and from the tolerant search if it does not.
-/
namespace Concord.Access

open Concord.Text

variable [ScriptParser]

/-- The reads of a script by the one way or the other. -/
def reads (text : List Char) : List Read :=
  (ScriptParser.memberReads? text).getD (tolerantReads text)

/-- The members that a script reads from `root`, in the order of their first places. -/
def membersOf (root : String) (text : List Char) : List Member :=
  members text <| ((reads text).filter fun read => read.object = root.toList).map fun read =>
    (read.offset, read.member)

/-- The static keys of an object literal that parses, which it does in parentheses. -/
def parsedKeys? (literal : List Char) : Option (List (List Char)) :=
  (ScriptParser.propertyKeys? ('(' :: literal ++ [')'])).map fun keys => keys.filterMap id

/-- The static keys of an object literal. -/
def literalKeys (literal : List Char) : List String :=
  ((parsedKeys? literal).getD (splitKeys literal)).map String.ofList

/-- The keys of the object that a projection export gives, if that is a literal. -/
def projectionKeys? (kind : Export.Kind) (source : String) : Option (List String) :=
  (projectionLiteral? kind source.toList).map literalKeys

end Concord.Access
