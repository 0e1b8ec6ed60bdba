import Concord.Settings.Basic
import Concord.Json.Reader

/-!
Reading settings from JSON text: an object with any of the fields, or an array with the first ones
in order. A field that is not given keeps its default, and a field given twice is refused.
-/
namespace Concord.Settings

open Concord.Json

/-- The fields read so far. -/
structure Draft where
  roleSuffixes : Option (RoleMap (List String)) := none
  namingConventions : Option (RoleMap String) := none
  treatWarningsAsErrors : Option Bool := none
  flagStrayFiles : Option Bool := none
  extensions : Option (List String) := none
  storeHandle : Option String := none
  viewRoot : Option String := none
  projectionSymbol : Option String := none
  deriving DecidableEq, Repr

namespace Draft

/-- The draft with defaults for the fields that were not given. -/
def complete (draft : Draft) : Settings :=
  let default : Settings := {}
  { roleSuffixes := draft.roleSuffixes.getD default.roleSuffixes
    namingConventions := draft.namingConventions.getD default.namingConventions
    treatWarningsAsErrors := draft.treatWarningsAsErrors.getD default.treatWarningsAsErrors
    flagStrayFiles := draft.flagStrayFiles.getD default.flagStrayFiles
    extensions := draft.extensions.getD default.extensions
    storeHandle := draft.storeHandle.getD default.storeHandle
    viewRoot := draft.viewRoot.getD default.viewRoot
    projectionSymbol := draft.projectionSymbol.getD default.projectionSymbol }

def has (draft : Draft) : Field → Bool
  | .roleSuffixes => draft.roleSuffixes.isSome
  | .namingConventions => draft.namingConventions.isSome
  | .treatWarningsAsErrors => draft.treatWarningsAsErrors.isSome
  | .flagStrayFiles => draft.flagStrayFiles.isSome
  | .extensions => draft.extensions.isSome
  | .storeHandle => draft.storeHandle.isSome
  | .viewRoot => draft.viewRoot.isSome
  | .projectionSymbol => draft.projectionSymbol.isSome

end Draft

/-- A table by role: an object whose names are roles. A role given twice keeps its last value. -/
def readRoleMap {α : Type} (value : List Char → Except Problem (α × List Char)) (text : List Char) :
    Except Problem (RoleMap α × List Char) :=
  match skipSpace text with
  | '\x7b' :: rest =>
    let entry (map : RoleMap α) (name : String) (rest : List Char) :
        Except Problem (RoleMap α × List Char) :=
      match Role.ofLabel? name with
      | none => .error .mismatch
      | some role => do
        let (entry, rest) ← value (← colon rest)
        return (map.insert role entry, rest)
    fields entry (rest.length + 1) true {} rest
  | other => .error (mismatchAt other)

/-- Reads the value of a field into the draft. -/
def readField (draft : Draft) (field : Field) (text : List Char) :
    Except Problem (Draft × List Char) :=
  match field with
  | .roleSuffixes => do
    let (value, rest) ← readRoleMap (readList readString) text
    return ({ draft with roleSuffixes := some value }, rest)
  | .namingConventions => do
    let (value, rest) ← readRoleMap readString text
    return ({ draft with namingConventions := some value }, rest)
  | .treatWarningsAsErrors => do
    let (value, rest) ← readBool text
    return ({ draft with treatWarningsAsErrors := some value }, rest)
  | .flagStrayFiles => do
    let (value, rest) ← readBool text
    return ({ draft with flagStrayFiles := some value }, rest)
  | .extensions => do
    let (value, rest) ← readList readString text
    return ({ draft with extensions := some value }, rest)
  | .storeHandle => do
    let (value, rest) ← readString text
    return ({ draft with storeHandle := some value }, rest)
  | .viewRoot => do
    let (value, rest) ← readString text
    return ({ draft with viewRoot := some value }, rest)
  | .projectionSymbol => do
    let (value, rest) ← readString text
    return ({ draft with projectionSymbol := some value }, rest)

/-- A field of the object, from behind its name. Values of other fields only have to be JSON. -/
def readNamed (draft : Draft) (name : String) (text : List Char) :
    Except Problem (Draft × List Char) :=
  match Field.ofLabel? name with
  | none => do return (draft, ← ignore (← colon text))
  | some field =>
    if draft.has field then .error .mismatch else do readField draft field (← colon text)

/-- The fields of the array form, through its closing bracket. -/
def readItems : List Field → Bool → Draft → List Char → Except Problem (Draft × List Char)
  | [], _, draft, text =>
    match skipSpace text with
    | [] => .error .truncated
    | ']' :: rest => .ok (draft, rest)
    | _ => .error .malformed
  | field :: later, opened, draft, text => do
    match ← nextItem opened text with
    | .done rest => return (draft, rest)
    | .item rest => do
      let (draft, rest) ← readField draft field rest
      readItems later false draft rest

/-- Reads settings from a whole JSON text. -/
def ofJson (text : String) : Except Problem Settings := do
  let (draft, rest) ←
    match skipSpace text.toList with
    | '\x7b' :: rest => fields readNamed (rest.length + 1) true {} rest
    | '[' :: rest => readItems Field.all true {} rest
    | other => .error (mismatchAt other)
  finish rest
  return draft.complete

end Concord.Settings
