import Concord.Diagnostic
import Concord.Digest.Sha256

/-!
Reports: diagnostics in the order in which they were found, with their counts, and the fingerprint
of the whole.
-/
namespace Concord

structure Report where
  diagnostics : List Diagnostic
  errorCount : Nat
  warningCount : Nat
  codes : List String
  locations : List String
  deriving DecidableEq, Repr

namespace Report

def ofDiagnostics (diagnostics : List Diagnostic) : Report :=
  let errors := diagnostics.countP Diagnostic.isError
  { diagnostics := diagnostics
    errorCount := errors
    warningCount := diagnostics.length - errors
    codes := diagnostics.map Diagnostic.code
    locations := diagnostics.map Diagnostic.location }

/-- No diagnostic is an error. -/
def isClean (report : Report) : Bool :=
  report.errorCount = 0

def hasCode (report : Report) (code : String) : Bool :=
  report.codes.contains code

def countOf (report : Report) (code : String) : Nat :=
  report.codes.count code

open Json in
def toJson (report : Report) : Value :=
  .object
    [("diagnostics", .array (report.diagnostics.map Diagnostic.toJson)),
      ("errorCount", .number report.errorCount), ("warningCount", .number report.warningCount),
      ("codes", .array (report.codes.map .string)),
      ("locations", .array (report.locations.map .string))]

/-- The digest of the compact text of the report. -/
def fingerprint (report : Report) : String :=
  String.ofList (Digest.hex (Digest.sha256 (report.toJson.render.flatMap String.utf8EncodeChar)))

end Report

end Concord
