import Concord.Script.Parser.Grammar

/-!
What is told from a parsed script: the member reads in it, and the keys of an object literal.
-/
namespace Concord.Script

/-- The member reads of a script, if it parses. -/
def memberReads? (text : List Char) : Option (List Access.Read) :=
  (run? script (skipInterpreter text)).map (Node.reads (Text.byteSize text))

/-- The properties of an object, if the text parses as an expression that is one. -/
def propertyKeys? (text : List Char) : Option (List (Option (List Char))) :=
  run? (Parser.inner .expression) text >>= Node.propertyKeys?

instance : Access.ScriptParser where
  memberReads? := memberReads?
  propertyKeys? := propertyKeys?

end Concord.Script
