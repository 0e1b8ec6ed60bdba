import Concord.Diagnostic
import Concord.Export.Extract
import Concord.Role.Classify
import Concord.Role.SlotMap

/-!
Components: the files that share a name, each in the slot of its role. A slot belongs to the first
file that claims it; what is turned away, and what cannot be read, leaves a diagnostic.
-/
namespace Concord

open Concord.Export

structure Source where
  path : String
  text : String
  deriving DecidableEq, Repr

/-- A source with its normalised path and its classification. -/
structure SourceFile where
  path : String
  text : String
  component : String
  slot : Slot
  parseFailed : Bool := false
  deriving DecidableEq, Repr

def SourceFile.spanAt (file : SourceFile) (line : Nat) : Span :=
  ⟨file.path, line⟩

def SourceFile.ofSource (conventions : Conventions) (source : Source) : SourceFile :=
  let path := normalizePath source.path
  let found := classify conventions path
  { path := path, text := source.text, component := found.component, slot := found.slot }

structure Symbol where
  name : String
  kind : Kind
  slot : Slot
  component : String
  span : Span
  source : Option String
  target : Option String
  deriving DecidableEq, Repr

def Symbol.ofExport (file : SourceFile) (found : Export) : Symbol :=
  { name := found.name, kind := found.kind, slot := file.slot, component := file.component
    span := file.spanAt found.line, source := found.source, target := found.target }

structure Component where
  id : String
  filesByRole : SlotMap SourceFile := .empty
  symbolsByRole : SlotMap (List Symbol) := .empty
  conflicts : List Diagnostic := []
  deriving DecidableEq, Repr

namespace Component

/-- The file of a role that has no variant. -/
def file? (component : Component) (role : Role) : Option SourceFile :=
  component.filesByRole.get? ⟨role, none⟩

/-- Some file plays the role, whatever its variant. -/
def hasRole (component : Component) (role : Role) : Bool :=
  component.filesByRole.keys.any fun slot => slot.role = role

def symbols (component : Component) (role : Role) : List Symbol :=
  (component.symbolsByRole.get? ⟨role, none⟩).getD []

def symbol? (component : Component) (role : Role) (name : String) : Option Symbol :=
  (component.symbols role).find? fun symbol => symbol.name = name

def isEmpty (component : Component) : Bool :=
  component.filesByRole.pairs.isEmpty

/-- The symbols of a file's exports, each name once, and a diagnostic for every repetition. `known`
holds the symbols taken so far. -/
def takeSymbols (file : SourceFile) (known : List Symbol) :
    List Export → List Symbol × List Diagnostic
  | [] => (known, [])
  | found :: rest =>
    match known.find? fun symbol => symbol.name = found.name with
    | none => takeSymbols file (known ++ [Symbol.ofExport file found]) rest
    | some first =>
      let repeated :=
        (Diagnostic.breach .duplicateExport file.component
          (s!"`{found.name}` is exported twice by the {file.slot.label} file "
            ++ s!"(first at line {first.span.line})."))
          |>.withSymbol found.name |>.withSpan (file.spanAt found.line)
      let (symbols, more) := takeSymbols file known rest
      (symbols, repeated :: more)

/-- Takes in a file: it gets its slot if that is free. -/
def ingest (component : Component) (file : SourceFile) : Component :=
  match component.filesByRole.get? file.slot with
  | some kept =>
    let dropped :=
      (Diagnostic.breach .duplicateRole component.id
        (s!"Component already has a {file.slot.label} file `{kept.path}`; "
          ++ s!"`{file.path}` is ignored."))
        |>.withSpan (file.spanAt 1)
    { component with conflicts := component.conflicts ++ [dropped] }
  | none =>
    match extract file.text.toList with
    | .error imbalance =>
      let broken :=
        (Diagnostic.breach .parseAmbiguous component.id
          s!"Cannot balance `{file.path}`: {imbalance.message}.")
          |>.withSpan (file.spanAt imbalance.line)
      { component with
        symbolsByRole := component.symbolsByRole.insert file.slot []
        filesByRole := component.filesByRole.insert file.slot { file with parseFailed := true }
        conflicts := component.conflicts ++ [broken] }
    | .ok exports =>
      let (symbols, repeated) := takeSymbols file [] exports
      { component with
        symbolsByRole := component.symbolsByRole.insert file.slot symbols
        filesByRole := component.filesByRole.insert file.slot file
        conflicts := component.conflicts ++ repeated }

end Component

end Concord
