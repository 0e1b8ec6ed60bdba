/-!
What a script file exports.
-/
namespace Concord

inductive Export.Kind where
  | function
  | value
  | destructuredTyped
  | reExport
  deriving DecidableEq, Repr

def Export.Kind.label : Export.Kind → String
  | function => "function"
  | value => "value"
  | destructuredTyped => "destructured-typed"
  | reExport => "re-export"

/-- One exported binding. `source` is its initializer, or the whole text of a function declaration;
`target` and `origin` are the local name and the module of a re-export. -/
structure Export where
  name : String
  kind : Export.Kind
  line : Nat
  source : Option String := none
  target : Option String := none
  origin : Option String := none
  deriving DecidableEq, Repr

end Concord
