import Concord.Proofs.Locations

/-!
The two flags of the settings. Neither decides how a file is classified or what is found in it:
counting warnings as errors raises the severity of what the rules and the stray files report, and
conflicts are errors already; flagging stray files puts their diagnostics behind the others. So a
report under one value of a flag is read off the report under the other.
-/
namespace Concord

theorem Diagnostic.severity_breach (contract : Contract) (component message : String) :
    (breach contract component message).severity = contract.severity := by
  simp [breach, ofCode]

theorem Diagnostic.isError_breach {contract : Contract} (component message : String)
    (grave : contract.severity = .error) : (breach contract component message).isError = true := by
  rw [isError, severity_breach, grave]
  rfl

/-- Raising an error changes nothing. -/
theorem Diagnostic.escalate_of_isError {d : Diagnostic} (grave : d.isError = true) (strict : Bool) :
    d.escalate strict = d := by
  have error : d.severity = .error := of_decide_eq_true grave
  cases strict with
  | false => rfl
  | true => rw [escalate, if_pos rfl, ← error]

/-! Conflicts are errors -/

namespace Component

theorem isError_of_mem_takeSymbols (file : SourceFile) (known : List Symbol)
    (exports : List Export) : ∀ d ∈ (takeSymbols file known exports).2, d.isError = true := by
  -- by induction over the exports: only a name that is known already gives a conflict, and that is
  -- an error
  induction exports generalizing known with
  | nil => simp [takeSymbols]
  | cons found rest ih =>
    rw [takeSymbols]
    split
    · exact ih _
    · intro d member
      rcases List.mem_cons.mp member with rfl | member
      · exact Diagnostic.isError_breach _ _ rfl
      · exact ih _ d member

/-- Taking in a file adds no conflict that is a mere warning. -/
theorem isError_of_mem_ingest {component : Component} (file : SourceFile)
    (grave : ∀ d ∈ component.conflicts, d.isError = true) :
    ∀ d ∈ (component.ingest file).conflicts, d.isError = true := by
  intro d member
  rw [ingest] at member
  -- a file is foreign, finds its slot taken, or is read; each way adds errors only
  split at member
  · rcases List.mem_append.mp member with old | new
    · exact grave d old
    · rw [List.mem_singleton.mp new]
      exact Diagnostic.isError_breach _ _ rfl
  · split at member
    · rcases List.mem_append.mp member with old | new
      · exact grave d old
      · rw [List.mem_singleton.mp new]
        exact Diagnostic.isError_breach _ _ rfl
    · rcases List.mem_append.mp member with old | new
      · exact grave d old
      · exact isError_of_mem_takeSymbols file [] _ d new

end Component

theorem Index.isError_of_mem_gather (files : List SourceFile) (id : String) :
    ∀ d ∈ (gather files id).conflicts, d.isError = true := by
  have kept (taken : List SourceFile) (component : Component)
      (grave : ∀ d ∈ component.conflicts, d.isError = true) :
      ∀ d ∈ (taken.foldl Component.ingest component).conflicts, d.isError = true := by
    induction taken generalizing component with
    | nil => exact grave
    | cons file rest ih => exact ih _ (Component.isError_of_mem_ingest file grave)
  exact kept _ { id := id } (by simp)

/-! What the flags change -/

/-- No rule reads the flag: what the rules find is raised once, behind all of them. -/
theorem Component.validate_strict [Access.ScriptParser] (component : Component)
    (conventions : Conventions) :
    component.validate { conventions with treatWarningsAsErrors := true } =
      (component.validate { conventions with treatWarningsAsErrors := false }).map
        (Diagnostic.escalate true) := by
  rw [validate, validate, List.map_map]
  rfl

theorem Component.diagnostics_strict [Access.ScriptParser] {component : Component}
    (conventions : Conventions)
    (grave : ∀ d ∈ component.conflicts, d.isError = true) :
    component.diagnostics { conventions with treatWarningsAsErrors := true } =
      (component.diagnostics { conventions with treatWarningsAsErrors := false }).map
        (Diagnostic.escalate true) := by
  -- conflicts are errors already, so raising warnings leaves them as they are
  have conflicts : component.conflicts.map (Diagnostic.escalate true) = component.conflicts := by
    calc component.conflicts.map (Diagnostic.escalate true)
        = component.conflicts.map (fun d => d) :=
          List.map_congr_left fun d member => Diagnostic.escalate_of_isError (grave d member) true
      _ = component.conflicts := List.map_id' _
  rw [diagnostics, diagnostics, List.map_append, conflicts, validate_strict]

theorem SourceFile.strayDiagnostic_reports (file : SourceFile) (conventions : Conventions) :
    (file.strayDiagnostic conventions).Reports .strayFile file.component none (file.spanAt 1) :=
  (Diagnostic.breach_reports _ _ _ _).escalate _

/-- Checking settings passes the flags on and looks at neither. -/
theorem Settings.compile_flags [PatternEngine] {settings : Settings} {conventions : Conventions}
    (compiled : settings.compile = .ok conventions) (strict flag : Bool) :
    { settings with treatWarningsAsErrors := strict, flagStrayFiles := flag }.compile =
      .ok { conventions with treatWarningsAsErrors := strict, flagStrayFiles := flag } := by
  simp only [compile, bind_eq_ok] at compiled ⊢
  obtain ⟨suffixes, read, naming, read', first, handle, second, root, third, symbol, made⟩ :=
    compiled
  refine ⟨suffixes, read, naming, read', first, handle, second, root, third, symbol, ?_⟩
  cases made
  rfl

/-! Reports -/

namespace Report

/-- The diagnostics of `strict` are those of `report`, all of them errors. -/
structure Raised (report strict : Report) : Prop where
  diagnostics : strict.diagnostics =
    report.diagnostics.map fun d => { d with severity := .error }
  codes : strict.codes = report.codes
  locations : strict.locations = report.locations
  errorCount : strict.errorCount = report.errorCount + report.warningCount
  warningCount : strict.warningCount = 0
  isClean_iff : strict.isClean = true ↔ report.diagnostics = []

/-- `flagged` is `report` with one diagnostic more for each of the stray files, in their order. -/
def Flags (report flagged : Report) (strays : List SourceFile) : Prop :=
  ∃ more, flagged = ofDiagnostics (report.diagnostics ++ more) ∧
    List.Forall₂ (fun (file : SourceFile) (d : Diagnostic) =>
      d.Reports .strayFile file.component none (file.spanAt 1)) strays more

theorem raised_map_escalate (diagnostics : List Diagnostic) :
    Raised (ofDiagnostics diagnostics)
      (ofDiagnostics (diagnostics.map (Diagnostic.escalate true))) := by
  have errors : (diagnostics.map (Diagnostic.escalate true)).countP Diagnostic.isError =
      diagnostics.length := by
    rw [List.countP_map]
    exact List.countP_eq_length.mpr fun d _ => rfl
  constructor
  case diagnostics => rfl
  case codes | locations =>
    simp only [ofDiagnostics, List.map_map]
    rfl
  case errorCount =>
    rw [errorCount_add_warningCount]
    exact errors
  case warningCount => simp [ofDiagnostics, errors]
  case isClean_iff => simp [isClean, ofDiagnostics, errors]

end Report

section

variable [Access.ScriptParser] (conventions : Conventions) {sources : List Source}
  (named : ∀ source ∈ sources, source.isBlank = false)

include named

/-- Counting warnings as errors raises what is reported. -/
theorem check_strict :
    ∃ report strict,
      check { conventions with treatWarningsAsErrors := false } sources = .ok report ∧
      check { conventions with treatWarningsAsErrors := true } sources = .ok strict ∧
      report.Raised strict := by
  -- the files and components are the same under both values: classification reads neither flag
  have components (id : String) :
      (Index.gather (Source.files conventions sources) id).diagnostics
          { conventions with treatWarningsAsErrors := true } =
        ((Index.gather (Source.files conventions sources) id).diagnostics
          { conventions with treatWarningsAsErrors := false }).map (Diagnostic.escalate true) :=
    Component.diagnostics_strict conventions (Index.isError_of_mem_gather _ id)
  have strays : (if conventions.flagStrayFiles then
        (Source.strayFiles conventions sources).map fun file =>
          file.strayDiagnostic { conventions with treatWarningsAsErrors := true }
        else []) =
      (if conventions.flagStrayFiles then
        (Source.strayFiles conventions sources).map fun file =>
          file.strayDiagnostic { conventions with treatWarningsAsErrors := false }
        else []).map (Diagnostic.escalate true) := by
    split
    · rw [List.map_map]
      rfl
    · rfl
  refine ⟨_, _, check_eq_gather named, ?_, Report.raised_map_escalate _⟩
  rw [check_eq_gather named, List.map_append, List.map_flatMap]
  exact congrArg (fun found => Except.ok (Report.ofDiagnostics found))
    (congrArg₂ (· ++ ·) (List.flatMap_congr fun id _ => components id) strays)

/-- Flagging stray files adds a diagnostic for each of them. -/
theorem check_flagged :
    ∃ report flagged,
      check { conventions with flagStrayFiles := false } sources = .ok report ∧
      check { conventions with flagStrayFiles := true } sources = .ok flagged ∧
      report.Flags flagged (Source.strayFiles conventions sources) := by
  refine ⟨_, _, check_eq_gather named, check_eq_gather named,
    (Source.strayFiles conventions sources).map (·.strayDiagnostic conventions), ?_, ?_⟩
  · simp only [Bool.false_eq_true, if_false, if_true, List.append_nil]
    rfl
  · rw [List.forall₂_map_right_iff, List.forall₂_same]
    exact fun file _ => file.strayDiagnostic_reports conventions

end

/-- Under settings that compile, each flag changes the report in what it names and in nothing
else. -/
theorem check_flags [PatternEngine] [Access.ScriptParser] {settings : Settings}
    {conventions : Conventions} (compiled : settings.compile = .ok conventions)
    {sources : List Source} (named : ∀ source ∈ sources, source.isBlank = false) :
    (∀ strict flag,
      { settings with treatWarningsAsErrors := strict, flagStrayFiles := flag }.compile =
        .ok { conventions with treatWarningsAsErrors := strict, flagStrayFiles := flag }) ∧
    (∃ report strict,
      check { conventions with treatWarningsAsErrors := false } sources = .ok report ∧
      check { conventions with treatWarningsAsErrors := true } sources = .ok strict ∧
      report.Raised strict) ∧
    ∃ report flagged,
      check { conventions with flagStrayFiles := false } sources = .ok report ∧
      check { conventions with flagStrayFiles := true } sources = .ok flagged ∧
      report.Flags flagged (Source.strayFiles conventions sources) :=
  ⟨Settings.compile_flags compiled, check_strict conventions named,
    check_flagged conventions named⟩

/-- Stores whose exports start with `set`. -/
def Settings.setters : Settings :=
  { roleSuffixes := { store := some [".store"] }, namingConventions := { store := some "^set" } }

/-- A store with an odd name that is exported twice, and a stray file. -/
def Source.oddlyNamed : List Source :=
  [⟨"a.store.ts", "export const x = 1, x = 2"⟩, ⟨"b.ts", ""⟩]

theorem check_flags_oddlyNamed :
    ∃ conventions, Settings.setters.compile = .ok conventions ∧
      (∀ source ∈ Source.oddlyNamed, source.isBlank = false) ∧
      (∃ report strict,
        check { conventions with treatWarningsAsErrors := false } Source.oddlyNamed = .ok report ∧
        check { conventions with treatWarningsAsErrors := true } Source.oddlyNamed = .ok strict ∧
        report.Raised strict) ∧
      ∃ report flagged,
        check { conventions with flagStrayFiles := false } Source.oddlyNamed = .ok report ∧
        check { conventions with flagStrayFiles := true } Source.oddlyNamed = .ok flagged ∧
        report.Flags flagged (Source.strayFiles conventions Source.oddlyNamed) := by
  obtain ⟨conventions, compiled⟩ : ∃ conventions, Settings.setters.compile = .ok conventions :=
    ⟨_, rfl⟩
  have named : ∀ source ∈ Source.oddlyNamed, source.isBlank = false := by decide
  exact ⟨conventions, compiled, named, (check_flags compiled named).2⟩

end Concord
