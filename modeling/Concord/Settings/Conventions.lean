import Concord.Pattern.Basic
import Concord.Role.Suffix
import Concord.Settings.Reader
import Concord.Text.Identifier

/-!
Conventions: settings whose suffixes, name patterns and identifiers have been checked. The first
fault counts: suffixes in role order, then name patterns in role order, then the three identifiers.
-/
namespace Concord

structure Conventions where
  suffixes : List (Role × Suffix)
  naming : RoleMap Pattern
  treatWarningsAsErrors : Bool
  flagStrayFiles : Bool
  extensions : List String
  storeHandle : String
  viewRoot : String
  projectionSymbol : String

namespace Settings

/-- Why settings cannot be used. -/
inductive Fault where
  | json (problem : Json.Problem)
  | invalidPattern (role : Role) (pattern : String)
  | invalidSuffix (suffix : String)
  | unknownRoleSuffix
  | invalidIdentifier (field value : String)
  deriving DecidableEq, Repr

def Fault.message : Fault → String
  | json problem => s!"invalid engine config JSON: {problem.category}"
  | invalidPattern role pattern =>
    s!"invalid naming convention for role `{role.label}`: `{pattern}`"
  | invalidSuffix suffix =>
    s!"invalid role suffix `{suffix}`: expected `.token` segments, `*` for a variant"
  | unknownRoleSuffix => "role `unknown` cannot be assigned filename suffixes"
  | invalidIdentifier field value => s!"`{field}` must be a plain identifier, got `{value}`"

/-- The suffixes of one role. The role of unclaimed files can have none, not even an empty list. -/
def roleSuffixRules (role : Role) (suffixes : List String) :
    Except Fault (List (Role × Suffix)) :=
  if role = .unknown then .error .unknownRoleSuffix
  else
    suffixes.mapM fun raw =>
      match Suffix.parse? raw with
      | some suffix => .ok (role, suffix)
      | none => .error (.invalidSuffix raw)

def readPattern [PatternEngine] (role : Role) (raw : String) : Except Fault Pattern :=
  match Pattern.ofString? raw with
  | some pattern => .ok pattern
  | none => .error (.invalidPattern role raw)

def checkIdentifier (field : Field) (value : String) : Except Fault Unit :=
  if Text.isIdentifier value.toList then .ok () else .error (.invalidIdentifier field.label value)

/-- Checks every part of the settings. -/
def compile [PatternEngine] (settings : Settings) : Except Fault Conventions := do
  let suffixes ← settings.roleSuffixes.toList.mapM fun (role, suffixes) =>
    roleSuffixRules role suffixes
  let naming ← settings.namingConventions.toList.mapM fun (role, raw) => do
    return (role, ← readPattern role raw)
  checkIdentifier .storeHandle settings.storeHandle
  checkIdentifier .viewRoot settings.viewRoot
  checkIdentifier .projectionSymbol settings.projectionSymbol
  return {
    suffixes := suffixes.flatten
    naming := naming.foldl (fun map (role, pattern) => map.insert role pattern) {}
    treatWarningsAsErrors := settings.treatWarningsAsErrors
    flagStrayFiles := settings.flagStrayFiles
    extensions := settings.extensions.map fun extension =>
      String.ofList (extension.toList.dropWhile (· = '.'))
    storeHandle := settings.storeHandle
    viewRoot := settings.viewRoot
    projectionSymbol := settings.projectionSymbol }

/-- Settings from JSON text, checked. -/
def load [PatternEngine] (text : String) : Except Fault Conventions := do
  match ofJson text with
  | .error problem => .error (.json problem)
  | .ok settings => settings.compile

end Settings

end Concord
