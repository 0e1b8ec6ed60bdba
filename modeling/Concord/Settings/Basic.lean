import Concord.Role.Basic
import Concord.Json.Value

/-!
Settings: which suffixes give a role, which names a role may export, and the words the rules look
for. Every field has a default.
-/
namespace Concord

structure Settings where
  roleSuffixes : RoleMap (List String) :=
    { store := some [".store"], handlers := some [".handlers"], view := some [".view"]
      impl := some [".impl", ".*.impl"] }
  namingConventions : RoleMap String :=
    { store := some ("^(set|reset|add|remove|toggle|update|clear|increment|decrement|get|select|"
        ++ "is|has)[A-Z0-9_$]")
      handlers := some "^(on|handle)[A-Z0-9_$]" }
  treatWarningsAsErrors : Bool := false
  flagStrayFiles : Bool := false
  extensions : List String := ["ts", "tsx", "js", "jsx", "mjs", "cjs"]
  storeHandle : String := "store"
  viewRoot : String := "data"
  projectionSymbol : String := "viewData"
  deriving DecidableEq, Repr

namespace Settings

/-- The fields, in the order in which an array gives them. -/
inductive Field where
  | roleSuffixes
  | namingConventions
  | treatWarningsAsErrors
  | flagStrayFiles
  | extensions
  | storeHandle
  | viewRoot
  | projectionSymbol
  deriving DecidableEq, Repr

def Field.all : List Field :=
  [roleSuffixes, namingConventions, treatWarningsAsErrors, flagStrayFiles, extensions, storeHandle,
    viewRoot, projectionSymbol]

def Field.label : Field → String
  | roleSuffixes => "roleSuffixes"
  | namingConventions => "namingConventions"
  | treatWarningsAsErrors => "treatWarningsAsErrors"
  | flagStrayFiles => "flagStrayFiles"
  | extensions => "extensions"
  | storeHandle => "storeHandle"
  | viewRoot => "viewRoot"
  | projectionSymbol => "projectionSymbol"

def Field.ofLabel? (label : String) : Option Field :=
  Field.all.find? fun field => field.label = label

open Json in
/-- The value of a field as JSON. -/
def fieldJson (settings : Settings) : Field → Value
  | .roleSuffixes =>
    .object (settings.roleSuffixes.toList.map fun (role, suffixes) =>
      (role.label, .array (suffixes.map .string)))
  | .namingConventions =>
    .object (settings.namingConventions.toList.map fun (role, pattern) =>
      (role.label, .string pattern))
  | .treatWarningsAsErrors => .bool settings.treatWarningsAsErrors
  | .flagStrayFiles => .bool settings.flagStrayFiles
  | .extensions => .array (settings.extensions.map .string)
  | .storeHandle => .string settings.storeHandle
  | .viewRoot => .string settings.viewRoot
  | .projectionSymbol => .string settings.projectionSymbol

def toJson (settings : Settings) : Json.Value :=
  .object (Field.all.map fun field => (field.label, settings.fieldJson field))

end Settings

end Concord
