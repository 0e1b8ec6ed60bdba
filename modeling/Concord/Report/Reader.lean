import Concord.Json.Record
import Concord.Report

/-!
Reading reports from JSON text. Lines and counts are numbers of bounded size. A diagnostic may
leave out its symbol, its place and its hints; all other fields must be there.
-/
namespace Concord

open Json

def Severity.ofLabel? (label : String) : Option Severity :=
  [error, warning].find? fun severity => severity.label = label

@[simp] theorem Severity.ofLabel?_label (severity : Severity) :
    ofLabel? severity.label = some severity := by
  cases severity <;> decide

/-- What the numbers of a report stay below. -/
structure Report.Limits where
  line : Nat
  count : Nat
  deriving DecidableEq, Repr

namespace Span

structure Draft where
  file : Option String := none
  line : Option Nat := none
  deriving DecidableEq, Repr

def Draft.complete? (draft : Draft) : Option Span := do
  return { file := ← draft.file, line := ← draft.line }

def readers (limits : Report.Limits) : List (FieldReader Draft) :=
  [.of "file" Draft.file (fun draft value => { draft with file := some value }) readString,
    .of "line" Draft.line (fun draft value => { draft with line := some value })
      (readNat limits.line)]

def read (limits : Report.Limits) : List Char → Except Problem (Span × List Char) :=
  readRecord (readers limits) {} Draft.complete?

end Span

namespace Diagnostic

structure Draft where
  code : Option String := none
  severity : Option Severity := none
  component : Option String := none
  message : Option String := none
  contract : Option String := none
  symbol : Option (Option String) := none
  span : Option (Option Span) := none
  hints : Option (List String) := none
  deriving DecidableEq, Repr

def Draft.complete? (draft : Draft) : Option Diagnostic := do
  return {
    code := ← draft.code
    severity := ← draft.severity
    component := ← draft.component
    message := ← draft.message
    contract := ← draft.contract
    symbol := draft.symbol.getD none
    span := draft.span.getD none
    hints := draft.hints.getD [] }

def readers (limits : Report.Limits) : List (FieldReader Draft) :=
  [.of "code" Draft.code (fun draft value => { draft with code := some value }) readString,
    .of "severity" Draft.severity (fun draft value => { draft with severity := some value })
      (readVariant Severity.ofLabel?),
    .of "componentId" Draft.component (fun draft value => { draft with component := some value })
      readString,
    .of "message" Draft.message (fun draft value => { draft with message := some value })
      readString,
    .of "contract" Draft.contract (fun draft value => { draft with contract := some value })
      readString,
    .of "symbolName" Draft.symbol (fun draft value => { draft with symbol := some value })
      (readOptional readString),
    .of "span" Draft.span (fun draft value => { draft with span := some value })
      (readOptional (Span.read limits)),
    .of "hints" Draft.hints (fun draft value => { draft with hints := some value })
      (readList readString)]

def read (limits : Report.Limits) : List Char → Except Problem (Diagnostic × List Char) :=
  readRecord (readers limits) {} Draft.complete?

end Diagnostic

namespace Report

structure Draft where
  diagnostics : Option (List Diagnostic) := none
  errorCount : Option Nat := none
  warningCount : Option Nat := none
  codes : Option (List String) := none
  locations : Option (List String) := none
  deriving DecidableEq, Repr

def Draft.complete? (draft : Draft) : Option Report := do
  return {
    diagnostics := ← draft.diagnostics
    errorCount := ← draft.errorCount
    warningCount := ← draft.warningCount
    codes := ← draft.codes
    locations := ← draft.locations }

def readers (limits : Limits) : List (FieldReader Draft) :=
  [.of "diagnostics" Draft.diagnostics
      (fun draft value => { draft with diagnostics := some value })
      (readList (Diagnostic.read limits)),
    .of "errorCount" Draft.errorCount (fun draft value => { draft with errorCount := some value })
      (readNat limits.count),
    .of "warningCount" Draft.warningCount
      (fun draft value => { draft with warningCount := some value }) (readNat limits.count),
    .of "codes" Draft.codes (fun draft value => { draft with codes := some value })
      (readList readString),
    .of "locations" Draft.locations (fun draft value => { draft with locations := some value })
      (readList readString)]

def read (limits : Limits) : List Char → Except Problem (Report × List Char) :=
  readRecord (readers limits) {} Draft.complete?

/-- Reads a report from a whole JSON text. -/
def ofJson (limits : Limits) (text : String) : Except Problem Report := do
  let (report, rest) ← read limits text.toList
  finish rest
  return report

/-- The compact text of the report, which its fingerprint is the digest of. -/
def text (report : Report) : String :=
  String.ofList report.toJson.render

end Report

end Concord
