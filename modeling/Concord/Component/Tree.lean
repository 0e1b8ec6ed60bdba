import Concord.Component.Index

/-!
Source files of a directory tree. A tree lists its files and directories by their paths; a file
counts if its extension is known and its bytes are text.
-/
namespace Concord.Tree

open Concord.Text

/-- A path as its names, without empty ones and `.`. -/
def namesOf (path : String) : List (List Char) :=
  (splitAt '/' path.toList).filter fun name => !name.isEmpty && name ≠ ['.']

inductive Content where
  | directory
  | file (bytes : List UInt8)
  deriving DecidableEq, Repr

structure Node where
  path : List (List Char)
  content : Content
  deriving DecidableEq, Repr

/-- The extension of a file name: what follows its last dot, unless that is its first character. -/
def extension? (name : List Char) : Option (List Char) :=
  match (splitAt '.' name).reverse with
  | last :: before :: earlier =>
    if name = ['.', '.'] || before.isEmpty && earlier.isEmpty then none else some last
  | _ => none

/-- The file name has a known extension. -/
def isSource (conventions : Conventions) (path : List (List Char)) : Bool :=
  (path.getLast?.bind extension?).any fun found =>
    conventions.extensions.any fun extension => extension.toList = found

/-- The names with slashes between them. -/
def joinNames : List (List Char) → List Char
  | [] => []
  | [name] => name
  | name :: rest => name ++ '/' :: joinNames rest

/-- A node as a source below the root: its text and its path from there. -/
def source? (conventions : Conventions) (root : List (List Char)) (node : Node) : Option Source :=
  match node.content with
  | .directory => none
  | .file bytes =>
    if root.isPrefixOf node.path && isSource conventions node.path then
      (String.fromUTF8? ⟨bytes.toArray⟩).map fun text =>
        ⟨normalizePath (String.ofList (joinNames (node.path.drop root.length))), text⟩
    else none

/-- The tree has something at the path: the top, a node, or a directory around one. -/
def hasPath (nodes : List Node) (path : List (List Char)) : Bool :=
  path.isEmpty || nodes.any fun node => path.isPrefixOf node.path

/-- The last node of each path: what is written later replaces what was written there. -/
def current : List Node → List Node
  | [] => []
  | node :: rest => if rest.any (·.path = node.path) then current rest else node :: current rest

/-- The sources below a root in order of their paths; `none` if there is no such root. -/
def sources? (conventions : Conventions) (nodes : List Node) (root : List (List Char)) :
    Option (List Source) :=
  if hasPath nodes root then
    some <| ((current nodes).filterMap (source? conventions root)).mergeSort fun a b =>
      a.path ≤ b.path
  else none

end Concord.Tree
