import Concord.Check.Rules
import Concord.Report

/-!
Checking sources: each component's conflicts and rule breaches, in the order of the components, then
the stray files if they are asked for.
-/
namespace Concord

variable [Access.ScriptParser]

def Component.diagnostics (component : Component) (conventions : Conventions) : List Diagnostic :=
  component.conflicts ++ component.validate conventions

def Index.diagnostics (index : Index) (conventions : Conventions) : List Diagnostic :=
  index.components.flatMap (fun component => component.diagnostics conventions)
    ++ if conventions.flagStrayFiles then
        index.stray.map fun file => file.strayDiagnostic conventions
      else []

/-- The report on sources, all of which need a path. -/
def check (conventions : Conventions) (sources : List Source) : Except BlankPath Report := do
  let index ← Index.ofSources conventions sources
  return Report.ofDiagnostics (index.diagnostics conventions)

end Concord
