import Concord.Component.Basic

/-!
The index of a set of sources: its components in the order in which their first files come, and the
files that no role claims. Files are taken in order of path and text, so the order in which sources
are given does not matter.
-/
namespace Concord

structure Index where
  components : List Component := []
  stray : List SourceFile := []
  deriving DecidableEq, Repr

namespace Index

def component? (index : Index) (id : String) : Option Component :=
  index.components.find? fun component => component.id = id

/-- An index that is being built. `positions` tells where the component of an id stands. -/
structure Builder where
  components : List Component := []
  positions : List (String × Nat) := []
  stray : List SourceFile := []
  deriving DecidableEq, Repr

namespace Builder

/-- Where a component stands; a new one is opened behind the others. -/
def locate (builder : Builder) (id : String) : Nat × Builder :=
  match builder.positions.lookup id with
  | some position => (position, builder)
  | none =>
    let position := builder.components.length
    (position,
      { builder with
        components := builder.components ++ [{ id := id }]
        positions := (id, position) :: builder.positions })

/-- Takes in a file: its component does, or it is stray. -/
def ingest (builder : Builder) (file : SourceFile) : Builder :=
  if file.slot.role = .unknown then { builder with stray := builder.stray ++ [file] }
  else
    let (position, opened) := builder.locate file.component
    { opened with
      components := opened.components.modify position fun component => component.ingest file }

def finish (builder : Builder) : Index :=
  { components := builder.components, stray := builder.stray }

end Builder

/-- The index of files that are taken in one after the other. -/
def ofOrdered (files : List SourceFile) : Index :=
  (files.foldl Builder.ingest {}).finish

/-- Files go by path, those of one path by text. -/
def inOrder (a b : SourceFile) : Bool :=
  if a.path = b.path then a.text ≤ b.text else a.path < b.path

def ofFiles (files : List SourceFile) : Index :=
  ofOrdered (files.mergeSort inOrder)

end Index

/-- A source at this position has a blank path. -/
structure BlankPath where
  position : Nat
  deriving DecidableEq, Repr

def BlankPath.message (fault : BlankPath) : String :=
  s!"source input #{fault.position} has an empty path"

def Source.isBlank (source : Source) : Bool :=
  (Text.trim source.path.toList).isEmpty

/-- Indexes sources, all of which need a path. -/
def Index.ofSources (conventions : Conventions) (sources : List Source) : Except BlankPath Index :=
  match sources.findIdx? Source.isBlank with
  | some position => .error ⟨position⟩
  | none => .ok (Index.ofFiles (sources.map (SourceFile.ofSource conventions)))

end Concord
