import Concord.Role.Basic
import Concord.Settings.Conventions

/-!
The component and role of a path, from its name alone. The longest suffix wins; of two that are
equally long, the one of the role with the higher priority, and of that role the one listed first.
-/
namespace Concord

open Concord.Text

structure Classification where
  component : String
  role : Role
  variant : Option String := none
  deriving DecidableEq, Repr

namespace Classification

def slot (c : Classification) : Slot :=
  ⟨c.role, c.variant⟩

end Classification

/-- The form of a path in which components, order and locations are told: `/` for every `\`. -/
def normalizePath (path : String) : String :=
  String.ofList (path.toList.map fun c => if c = '\\' then '/' else c)

/-- The directory of a path with its last slash, and the file name. -/
def splitDirectory (path : List Char) : List Char × List Char :=
  let name := (path.reverse.takeWhile (· ≠ '/')).reverse
  (path.take (path.length - name.length), name)

/-- Parts with dots between them. -/
def joinDots : List (List Char) → List Char
  | [] => []
  | [part] => part
  | part :: rest => part ++ '.' :: joinDots rest

/-- A file name without its extension, if that is a known one and not the whole name. -/
def stripExtension (extensions : List String) (name : List Char) : List Char :=
  let parts := splitAt '.' name
  let base := joinDots parts.dropLast
  if !base.isEmpty && extensions.any fun extension => some extension.toList = parts.getLast? then
    base
  else name

/-- A suffix match of a role. -/
structure RoleMatch where
  role : Role
  found : Suffix.Match
  deriving DecidableEq, Repr

/-- `next` is to be preferred to what was found before it. -/
def RoleMatch.beats (next best : RoleMatch) : Bool :=
  best.found.size < next.found.size
    || best.found.size = next.found.size && next.role.priority < best.role.priority

/-- The preferred match of the suffixes in order. -/
def bestMatch (suffixes : List (Role × Suffix)) (parts : List (List Char)) : Option RoleMatch :=
  suffixes.foldl
    (fun best (role, suffix) =>
      match suffix.match? parts, best with
      | none, best => best
      | some found, none => some ⟨role, found⟩
      | some found, some best =>
        if RoleMatch.beats ⟨role, found⟩ best then some ⟨role, found⟩ else best)
    none

def classify (conventions : Conventions) (path : String) : Classification :=
  let (directory, name) := splitDirectory (normalizePath path).toList
  let stem := stripExtension conventions.extensions name
  match bestMatch conventions.suffixes (splitAt '.' stem) with
  | some best =>
    { component := String.ofList (directory ++ joinDots best.found.base)
      role := best.role
      variant := best.found.variant.map String.ofList }
  | none => { component := String.ofList (directory ++ stem), role := .unknown }

end Concord
