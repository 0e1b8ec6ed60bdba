import Concord.Proofs.FaultLines
import Concord.Proofs.RuleReports
import Concord.Proofs.SlotHolders

/-!
Where diagnostics point. A diagnostic gets its line from a fault of the scanner, from an export,
from the place of a member that is read, or it points to the first line. In each case the line is
one of the file that is named with it, so every location of a report can be opened.
-/
namespace Concord

open Concord.Access Concord.Export Concord.Text

/-- The span names a source by its path, and a line of its text. -/
def Span.PointsInto (span : Span) (sources : List Source) : Prop :=
  ∃ source ∈ sources, span.file = normalizePath source.path ∧
    HasLine source.text.toList span.line

/-- The span names the file and a line of its text. -/
def SourceFile.HasSpan (file : SourceFile) (span : Span) : Prop :=
  span.file = file.path ∧ HasLine file.text.toList span.line

theorem SourceFile.hasSpan_one (file : SourceFile) : file.HasSpan (file.spanAt 1) :=
  ⟨rfl, hasLine_one _⟩

/-- The diagnostic names one of these files and a line of its text. -/
def Diagnostic.Located (d : Diagnostic) (files : List SourceFile) : Prop :=
  ∃ span, d.span = some span ∧ ∃ file ∈ files, file.HasSpan span

theorem Diagnostic.Reports.located {d : Diagnostic} {contract : Contract} {component : String}
    {symbol : Option String} {span : Span} {files : List SourceFile} {file : SourceFile}
    (reports : d.Reports contract component symbol span) (member : file ∈ files)
    (has : file.HasSpan span) : d.Located files :=
  ⟨span, reports.span, file, member, has⟩

/-! Members that are read -/

/-- Whatever the offsets of the reads are, the members stand on lines of the text. -/
theorem Access.hasLine_of_mem_members {text : List Char} {hits : List (Nat × List Char)}
    {member : Member} (found : member ∈ members text hits) : HasLine text member.line := by
  obtain ⟨hit, -, rfl⟩ := List.mem_map.mp found
  exact hasLine_lineAt text hit.1

theorem SourceFile.hasSpan_of_mem_membersOf [ScriptParser] {file : SourceFile} {root : String}
    {member : Member} (read : member ∈ membersOf root file.text.toList) :
    file.HasSpan (file.spanAt member.line) :=
  ⟨rfl, Access.hasLine_of_mem_members read⟩

/-! Files -/

theorem SourceFile.located_of_mem_findings {file : SourceFile} {files : List SourceFile}
    (member : file ∈ files) {d : Diagnostic} (found : d ∈ file.findings) : d.Located files := by
  have records := Entry.ofFile_records file
  rw [Entry.Records] at records
  split at records
  next imbalance failed =>
    -- the line of a fault may count from the start of a fragment, but it is a line of the file
    obtain ⟨-, fault, only, reports⟩ := records
    rw [only, List.mem_singleton] at found
    subst found
    exact reports.located member ⟨rfl, (extract_error failed).hasLine⟩
  next exports read =>
    obtain ⟨-, again, -⟩ := records
    obtain ⟨e, repeated, reports⟩ := exists_mem_of_forall₂ again.flip found
    have exported : e ∈ exports :=
      (firsts_append_repeats_perm Export.name exports).mem_iff.mp
        (List.mem_append_right _ repeated)
    exact reports.located member ⟨rfl, extract_hasLine read e exported⟩

/-- A symbol that is kept stands in its file. -/
theorem Entry.hasSpan_of_mem_symbols {file : SourceFile} {symbol : Symbol}
    (exported : symbol ∈ (Entry.ofFile file).symbols) : file.HasSpan symbol.span := by
  have records := Entry.ofFile_records file
  rw [Entry.Records] at records
  split at records
  next failed =>
    rw [records.1] at exported
    cases exported
  next exports read =>
    rw [records.1] at exported
    obtain ⟨e, first, rfl⟩ := List.mem_map.mp exported
    exact ⟨rfl, extract_hasLine read e (mem_of_mem_firsts first)⟩

/-! Components -/

namespace Component

variable {component : Component} {conventions : Conventions} {files : List SourceFile}

theorem file?_of_readable? {role : Role} {file : SourceFile}
    (found : component.readable? role = some file) : component.file? role = some file :=
  (Option.filter_eq_some_iff.mp found).1

/-- A breach shows in a file that the component was given. -/
theorem Breach.hasSpan [ScriptParser] {contract : Contract} {symbol : Option String} {span : Span}
    (breach : component.Breach conventions contract symbol span)
    (holds : component.Holds files) : ∃ file ∈ files, file.HasSpan span := by
  -- an entry differs from its file only in the mark of a text that cannot be read
  have opened {role : Role} {found : SourceFile} (there : component.file? role = some found) :
      ∃ file ∈ files, found.path = file.path ∧ found.text = file.text := by
    obtain ⟨entry, stored, rfl⟩ := holds.aligned.exists_of_get? there
    obtain ⟨file, first, rfl⟩ := holds.exists_file stored
    obtain ⟨failed, same⟩ := Entry.ofFile_file file
    exact ⟨file, mem_of_mem_firsts first, by rw [same], by rw [same]⟩
  have placed {role : Role} {found : SourceFile} {span : Span}
      (there : component.file? role = some found) (has : found.HasSpan span) :
      ∃ file ∈ files, file.HasSpan span := by
    obtain ⟨file, member, path, text⟩ := opened there
    exact ⟨file, member, has.1.trans path, text ▸ has.2⟩
  have exported {entry : Entry} {symbol : Symbol} (stored : entry ∈ component.entries)
      (found : symbol ∈ entry.symbols) : ∃ file ∈ files, file.HasSpan symbol.span := by
    obtain ⟨file, first, rfl⟩ := holds.exists_file stored
    exact ⟨file, mem_of_mem_firsts first, Entry.hasSpan_of_mem_symbols found⟩
  cases breach with
  | storeCall _ handled read _ =>
    exact placed (file?_of_readable? handled) (SourceFile.hasSpan_of_mem_membersOf read)
  | missingField _ viewed _ read _ =>
    exact placed (file?_of_readable? viewed) (SourceFile.hasSpan_of_mem_membersOf read)
  | unusedField _ _ _ projected _ _ =>
    obtain ⟨entry, stored, found⟩ := holds.aligned.exists_of_symbol? projected
    exact exported stored found
  | orphan _ handled => exact placed handled (SourceFile.hasSpan_one _)
  | name stored _ found _ _ =>
    obtain ⟨entry, member, -, rfl⟩ := holds.aligned.exists_entry stored
    exact exported member found

theorem Holds.located_of_mem_conflicts (holds : component.Holds files) {d : Diagnostic}
    (found : d ∈ component.conflicts) : d.Located files := by
  obtain ⟨refusals, conflicts, refused⟩ := holds.conflicts
  have divided := firsts_append_repeats_perm SourceFile.slot files
  -- a conflict is the refusal of a file, or was found in a file that is held
  rcases List.mem_append.mp (conflicts.mem_iff.mp found) with refusal | finding
  · obtain ⟨file, again, reports⟩ := exists_mem_of_forall₂ refused.flip refusal
    have member := divided.mem_iff.mp (List.mem_append_right _ again)
    exact reports.located member (SourceFile.hasSpan_one file)
  · obtain ⟨file, first, finding⟩ := List.mem_flatMap.mp finding
    exact SourceFile.located_of_mem_findings (mem_of_mem_firsts first) finding

theorem Holds.located [ScriptParser] (holds : component.Holds files) {d : Diagnostic}
    (found : d ∈ component.diagnostics conventions) : d.Located files := by
  rcases List.mem_append.mp found with conflict | broken
  · exact holds.located_of_mem_conflicts conflict
  · obtain ⟨contract, symbol, span, breach, reports⟩ := reported_of_mem_validate broken
    obtain ⟨file, member, has⟩ := breach.hasSpan holds
    exact reports.located member has

end Component

theorem SourceFile.located_strayDiagnostic {file : SourceFile} {files : List SourceFile}
    (member : file ∈ files) (conventions : Conventions) :
    (file.strayDiagnostic conventions).Located files := by
  have reports := Diagnostic.breach_reports .strayFile file.component
    s!"`{file.path}` matches no role suffix and was not indexed." (file.spanAt 1)
  exact (reports.escalate _).located member file.hasSpan_one

/-! Reports -/

variable {conventions : Conventions} {sources : List Source}

theorem Diagnostic.Located.pointsInto {d : Diagnostic}
    (located : d.Located (Source.files conventions sources)) :
    ∃ span, d.span = some span ∧ span.PointsInto sources := by
  obtain ⟨span, spanned, file, member, path, line⟩ := located
  obtain ⟨source, given, rfl⟩ := Source.mem_files.mp member
  exact ⟨span, spanned, source, given, path, line⟩

theorem Diagnostic.Located.mono {d : Diagnostic} {files more : List SourceFile}
    (located : d.Located files) (within : ∀ file ∈ files, file ∈ more) : d.Located more := by
  obtain ⟨span, spanned, file, member, has⟩ := located
  exact ⟨span, spanned, file, within file member, has⟩

theorem Report.errorCount_add_warningCount (diagnostics : List Diagnostic) :
    (Report.ofDiagnostics diagnostics).errorCount +
      (Report.ofDiagnostics diagnostics).warningCount = diagnostics.length := by
  have fewer : diagnostics.countP Diagnostic.isError ≤ diagnostics.length := List.countP_le_length
  simp only [Report.ofDiagnostics]
  omega

/-- Every location of a report is a line of a source, wherever the parser says that members are
read. -/
theorem check_located [ScriptParser] (conventions : Conventions) (sources : List Source)
    (named : ∀ source ∈ sources, source.isBlank = false) :
    ∃ report, check conventions sources = .ok report ∧
      List.Forall₂ (fun (d : Diagnostic) location =>
          ∃ span, d.span = some span ∧ span.PointsInto sources ∧ location = span.display)
        report.diagnostics report.locations ∧
      report.codes = report.diagnostics.map Diagnostic.code ∧
      report.errorCount + report.warningCount = report.diagnostics.length := by
  refine ⟨_, check_eq_gather named, ?_, rfl, Report.errorCount_add_warningCount _⟩
  rw [Report.ofDiagnostics, List.forall₂_map_right_iff, List.forall₂_same]
  intro d found
  -- a diagnostic comes from a component, whose files are among all files, or from a stray file
  have located : d.Located (Source.files conventions sources) := by
    rcases List.mem_append.mp found with component | stray
    · obtain ⟨id, -, found⟩ := List.mem_flatMap.mp component
      have holds := Index.gather_holds (Source.files conventions sources) id
      exact (holds.located found).mono fun file member => List.mem_of_mem_filter member
    · split at stray
      · obtain ⟨file, member, rfl⟩ := List.mem_map.mp stray
        rw [Source.strayFiles, ← Source.filter_files] at member
        exact SourceFile.located_strayDiagnostic (List.mem_of_mem_filter member) conventions
      · cases stray
  obtain ⟨span, spanned, points⟩ := located.pointsInto
  exact ⟨span, spanned, points, by rw [Diagnostic.location, spanned]⟩

/-- A name that is exported again, a file that is turned away, one that cannot be read, and one that
is stray. -/
theorem check_located_contested :
    ∃ report, check .storesOnly Source.contested = .ok report ∧
      report.codes = ["DUPLICATE_EXPORT", "DUPLICATE_ROLE", "PARSE_AMBIGUOUS", "STRAY_FILE"] ∧
      report.locations = ["b/x.store.ts:1", "b/x.store.ts:1", "c/y.store.ts:2", "b/x.ts:1"] ∧
      ∀ d ∈ report.diagnostics, ∃ span, d.span = some span ∧
        span.PointsInto Source.contested := by
  obtain ⟨report, checked, located, -⟩ := check_located .storesOnly Source.contested (by decide)
  have inOrder : check .storesOnly Source.contested = .ok _ :=
    check_of_inOrder (by decide) (by decide +kernel)
  refine ⟨report, checked, ?_, ?_, ?_⟩
  · obtain rfl := Except.ok.inj (checked.symm.trans inOrder)
    decide +kernel
  · obtain rfl := Except.ok.inj (checked.symm.trans inOrder)
    decide +kernel
  · intro d found
    obtain ⟨location, -, span, spanned, points, -⟩ := exists_mem_of_forall₂ located found
    exact ⟨span, spanned, points⟩

end Concord
