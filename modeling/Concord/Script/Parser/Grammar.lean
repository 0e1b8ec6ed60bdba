import Concord.Script.Parser.Modules

/-!
The rule of each construct, and the recursion through them. Every construct holds the ones inside it
in a shorter text or passes through a few others first, so a depth of some multiple of the length of
the text is never reached.
-/
namespace Concord.Script

open Concord.Script.Parser

def rule : Goal → Parser Node
  | .expression => expression
  | .assignment arrowTypes => assignment arrowTypes
  | .binary level => binary level
  | .unary => unary
  | .leftHand => leftHand
  | .construct => construct
  | .object => objectLiteral
  | .markup inContent => markup inContent
  | .pattern => bindingPattern
  | .type => typeRule
  | .statement single => statement single
  | .block => block
  | .classBody => classBody
  | .typeMembers => typeMembers

/-- Parses a construct with no more than the given number of constructs around each other. -/
def parseWithin : Nat → Goal → Step Node
  | 0, _ => throw ()
  | depth + 1, goal => rule goal (parseWithin depth)

/-- Runs a parser on a text. It must end without a fault and all that it assigns to must be
assignable. -/
def run? (p : Parser Node) (text : List Char) : Option Node :=
  let (token, rest) := lex text
  let bound := text.length + 2
  match p (parseWithin (8 * bound + 64)) { token, rest, bound } with
  | .ok node s => if s.faulty || !node.assignable .value then none else some node
  | .error _ _ => none

/-- All statements of a script. -/
def script : Parser Node := do
  let items ← many do
    if (← kind) = .finish then return none
    return some (← inner (.statement false))
  return .all items

end Concord.Script
