import Concord.Json.Value

/-!
Diagnostics: what was found, where, and which contract it breaks.
-/
namespace Concord

inductive Severity where
  | error
  | warning
  deriving DecidableEq, Repr

def Severity.label : Severity → String
  | error => "error"
  | warning => "warning"

/-- What the files of a component promise each other. -/
inductive Contract where
  | parseAmbiguous
  | duplicateRole
  | duplicateExport
  | unknownStoreMethod
  | missingViewField
  | unusedViewField
  | orphanHandlers
  | namingViolation
  | strayFile
  deriving DecidableEq, Repr

namespace Contract

def all : List Contract :=
  [parseAmbiguous, duplicateRole, duplicateExport, unknownStoreMethod, missingViewField,
    unusedViewField, orphanHandlers, namingViolation, strayFile]

def code : Contract → String
  | parseAmbiguous => "PARSE_AMBIGUOUS"
  | duplicateRole => "DUPLICATE_ROLE"
  | duplicateExport => "DUPLICATE_EXPORT"
  | unknownStoreMethod => "UNKNOWN_STORE_METHOD"
  | missingViewField => "MISSING_VIEW_FIELD"
  | unusedViewField => "UNUSED_VIEW_FIELD"
  | orphanHandlers => "ORPHAN_HANDLERS"
  | namingViolation => "NAMING_VIOLATION"
  | strayFile => "STRAY_FILE"

def statement : Contract → String
  | parseAmbiguous => "Every scanned file has balanced brackets, strings and templates."
  | duplicateRole => "A component has at most one file per role."
  | duplicateExport => "A role file exports each name at most once."
  | unknownStoreMethod => "Handlers only call store members the paired store exports."
  | missingViewField => "The store's view projection supplies every field the view reads."
  | unusedViewField => "Every projected view field is read by the view."
  | orphanHandlers => "A component with handlers also has a store."
  | namingViolation => "Exported names follow the naming convention of their role."
  | strayFile => "Every scanned file belongs to a component role."

/-- Unread fields, odd names and stray files are only warned about. -/
def severity : Contract → Severity
  | unusedViewField | namingViolation | strayFile => .warning
  | _ => .error

def ofCode? (code : String) : Option Contract :=
  all.find? fun contract => contract.code = code

@[simp] theorem ofCode?_code (contract : Contract) : ofCode? contract.code = some contract := by
  cases contract <;> decide

end Contract

structure Span where
  file : String
  line : Nat
  deriving DecidableEq, Repr

def Span.display (span : Span) : String :=
  s!"{span.file}:{span.line}"

structure Diagnostic where
  code : String
  severity : Severity
  component : String
  message : String
  contract : String
  symbol : Option String := none
  span : Option Span := none
  hints : List String := []
  deriving DecidableEq, Repr

namespace Diagnostic

/-- A diagnostic by its code. A code without a contract is an error. -/
def ofCode (code component message : String) : Diagnostic :=
  match Contract.ofCode? code with
  | some contract =>
    ⟨code, contract.severity, component, message, contract.statement, none, none, []⟩
  | none => ⟨code, .error, component, message, "Unknown contract.", none, none, []⟩

/-- A breach of a contract. -/
def breach (contract : Contract) (component message : String) : Diagnostic :=
  ofCode contract.code component message

def withSymbol (d : Diagnostic) (name : String) : Diagnostic :=
  { d with symbol := some name }

def withSpan (d : Diagnostic) (span : Span) : Diagnostic :=
  { d with span := some span }

def withHint (d : Diagnostic) (hint : String) : Diagnostic :=
  { d with hints := d.hints ++ [hint] }

def isError (d : Diagnostic) : Bool :=
  d.severity = .error

/-- The file and line, or the component if there is none. -/
def location (d : Diagnostic) : String :=
  match d.span with
  | some span => span.display
  | none => d.component

/-- With `strict`, warnings become errors. -/
def escalate (strict : Bool) (d : Diagnostic) : Diagnostic :=
  if strict then { d with severity := .error } else d

open Json in
def toJson (d : Diagnostic) : Value :=
  let optional (name : String) (value : Option Value) : List (String × Value) :=
    (value.map fun value => (name, value)).toList
  .object <|
    [("code", .string d.code), ("severity", .string d.severity.label),
      ("componentId", .string d.component), ("message", .string d.message),
      ("contract", .string d.contract)]
    ++ optional "symbolName" (d.symbol.map .string)
    ++ optional "span" (d.span.map fun span =>
      .object [("file", .string span.file), ("line", .number span.line)])
    ++ optional "hints" (if d.hints.isEmpty then none else some (.array (d.hints.map .string)))

/-- The diagnostic says that a component breaks `contract`, at a place and, maybe, with a symbol. -/
structure Reports (d : Diagnostic) (contract : Contract) (component : String)
    (symbol : Option String) (span : Span) : Prop where
  code : d.code = contract.code
  component : d.component = component
  symbol : d.symbol = symbol
  span : d.span = some span

theorem breach_reports (contract : Contract) (component message : String) (span : Span) :
    ((breach contract component message).withSpan span).Reports contract component none span := by
  constructor <;> simp [breach, ofCode, withSpan]

theorem breach_withSymbol_reports (contract : Contract) (component message name : String)
    (span : Span) :
    (((breach contract component message).withSymbol name).withSpan span).Reports contract component
      (some name) span := by
  constructor <;> simp [breach, ofCode, withSymbol, withSpan]

section

variable {d : Diagnostic} {contract : Contract} {component : String} {symbol : Option String}
  {span : Span}

theorem Reports.withHint (reports : d.Reports contract component symbol span) (hint : String) :
    (d.withHint hint).Reports contract component symbol span :=
  ⟨reports.code, reports.component, reports.symbol, reports.span⟩

theorem Reports.escalate (reports : d.Reports contract component symbol span) (strict : Bool) :
    (d.escalate strict).Reports contract component symbol span := by
  cases strict with
  | false => exact reports
  | true => exact ⟨reports.code, reports.component, reports.symbol, reports.span⟩

end

end Diagnostic

end Concord
