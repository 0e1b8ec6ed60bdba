import Concord.Access.Collect
import Concord.Component.Index

/-!
The rules a component is held to. Files that could not be read are left out of the rules that look
into them.
-/
namespace Concord

open Concord.Access Concord.Export

namespace Component

/-- The file of a role without variant, if it could be read. -/
def readable? (component : Component) (role : Role) : Option SourceFile :=
  (component.file? role).filter fun file => !file.parseFailed

/-- The store defines a symbol of this name itself. -/
def resolves (component : Component) (name : String) : Bool :=
  (component.symbol? .store name).any fun symbol => symbol.kind ≠ .reExport

/-- What the handlers read from the store is exported by it. -/
def storeCalls [ScriptParser] (component : Component) (conventions : Conventions) :
    List Diagnostic :=
  match component.readable? .store, component.readable? .handlers with
  | some store, some handlers =>
    ((membersOf conventions.storeHandle handlers.text.toList).filter fun member =>
      !component.resolves member.name).map fun member =>
        let found :=
          (Diagnostic.breach .unknownStoreMethod component.id
            (s!"`{conventions.storeHandle}.{member.name}` does not resolve to an export of "
              ++ s!"`{store.path}`."))
            |>.withSymbol member.name |>.withSpan (handlers.spanAt member.line)
        if (component.symbol? .store member.name).isSome then
          found.withHint
            s!"`{member.name}` is only re-exported; export the definition from the store itself."
        else found
  | _, _ => []

/-- The fields that the projection supplies: none without a projection, and unknown if it is not a
literal. -/
def suppliedFields? [ScriptParser] (component : Component) (conventions : Conventions) :
    Option (List String) :=
  match component.symbol? .store conventions.projectionSymbol with
  | none => some []
  | some symbol => symbol.source.bind (projectionKeys? symbol.kind)

/-- Every field that the view reads is supplied. -/
def missingFields (component : Component) (conventions : Conventions) (store view : SourceFile)
    (fields : List Member) (keys : List String) : List Diagnostic :=
  (fields.filter fun field => !keys.contains field.name).map fun field =>
    let found :=
      (Diagnostic.breach .missingViewField component.id
        (s!"View reads `{conventions.viewRoot}.{field.name}` but the store projection does not "
          ++ s!"supply `{field.name}`."))
        |>.withSymbol field.name |>.withSpan (view.spanAt field.line)
    if (component.symbol? .store conventions.projectionSymbol).isNone then
      found.withHint s!"`{store.path}` exports no `{conventions.projectionSymbol}` projection."
    else found

/-- Every field that is supplied is read. -/
def unusedFields (component : Component) (conventions : Conventions) (fields : List Member)
    (keys : List String) : List Diagnostic :=
  match component.symbol? .store conventions.projectionSymbol with
  | none => []
  | some symbol =>
    (keys.filter fun key => !fields.any fun field => field.name = key).map fun key =>
      (Diagnostic.breach .unusedViewField component.id
        s!"Projection `{symbol.name}` supplies `{key}` but the view never reads it.")
        |>.withSymbol key |>.withSpan symbol.span

/-- The projection of the store and the fields of the view agree. -/
def viewFields [ScriptParser] (component : Component) (conventions : Conventions) :
    List Diagnostic :=
  match component.readable? .store, component.readable? .view,
    component.suppliedFields? conventions with
  | some store, some view, some keys =>
    let fields := membersOf conventions.viewRoot view.text.toList
    component.missingFields conventions store view fields keys
      ++ component.unusedFields conventions fields keys
  | _, _, _ => []

/-- Handlers come with a store. -/
def orphanHandlers (component : Component) : List Diagnostic :=
  if component.hasRole .store then []
  else
    (component.file? .handlers).toList.map fun handlers =>
      (Diagnostic.breach .orphanHandlers component.id
        s!"`{handlers.path}` has no paired store file.")
        |>.withSpan (handlers.spanAt 1)

/-- Exported names follow the pattern of their role; the projection may have any name. -/
def naming (component : Component) (conventions : Conventions) : List Diagnostic :=
  component.symbolsByRole.pairs.flatMap fun (slot, symbols) =>
    match conventions.naming.get? slot.role with
    | none => []
    | some pattern =>
      (symbols.filter fun symbol =>
        !(slot.role = .store && symbol.name = conventions.projectionSymbol)
          && !pattern.accepts symbol.name).map fun symbol =>
        (Diagnostic.breach .namingViolation component.id
          s!"{slot.label} export `{symbol.name}` does not match `{pattern.raw}`.")
          |>.withSymbol symbol.name |>.withSpan symbol.span

/-- All rules in order. -/
def validate [ScriptParser] (component : Component) (conventions : Conventions) :
    List Diagnostic :=
  (component.storeCalls conventions ++ component.viewFields conventions
    ++ component.orphanHandlers ++ component.naming conventions).map
      (Diagnostic.escalate conventions.treatWarningsAsErrors)

end Component

/-- The diagnostic of a file that no role claims. -/
def SourceFile.strayDiagnostic (file : SourceFile) (conventions : Conventions) : Diagnostic :=
  ((Diagnostic.breach .strayFile file.component
    s!"`{file.path}` matches no role suffix and was not indexed.").withSpan
      (file.spanAt 1)).escalate conventions.treatWarningsAsErrors

end Concord
