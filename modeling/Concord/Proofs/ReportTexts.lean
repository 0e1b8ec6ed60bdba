import Concord.Proofs.JsonRecords
import Concord.Proofs.MaskedBytes
import Concord.Report.Reader

/-!
The text of a report, which its fingerprint is the digest of, determines the report: it is read
back as the report it was written for. Different reports are hashed from different bytes, and
reports with equal fingerprints are equal unless the digest collides.
-/
namespace Concord

open Json

/-- The numbers of the report stay below the limits. -/
structure Report.Fits (limits : Report.Limits) (report : Report) : Prop where
  errors : report.errorCount < limits.count
  warnings : report.warningCount < limits.count
  lines : ∀ d ∈ report.diagnostics, ∀ span ∈ d.span, span.line < limits.line

/-! Reading back what was written -/

section

variable {limits : Report.Limits}

theorem Span.read_render {span : Span} (below : span.line < limits.line) :
    ReadsAs (Span.read limits)
      (Value.object [("file", .string span.file), ("line", .number span.line)]).render span := by
  have file := readString_render span.file
  have line := readNat_render below
  exact readRecord_render
    (.cons (fills_of (by rfl) rfl file) (.cons (fills_of (by rfl) rfl line) .nil)) rfl

/-- The members that are written for fields of a record. -/
def writtenMembers (fields : List (String × Value)) : List Member :=
  fields.map fun field => .compact field.1 field.2.render

namespace Diagnostic

theorem fillsAll_symbol {draft : Draft} (fresh : draft.symbol = none) (symbol : Option String) :
    FillsAll (readMember (readers limits)) draft
      (writtenMembers ((symbol.map Value.string).map fun value => ("symbolName", value)).toList)
      { draft with symbol := symbol.map some } := by
  cases symbol with
  | none =>
    cases draft
    cases fresh
    exact .nil
  | some name =>
    have reads := (readString_render name).optional fun same =>
      absurd (Option.some.inj same) (by decide)
    have found : (readers limits).find? (fun reader => reader.name = "symbolName")
        = some (.of "symbolName" Draft.symbol
          (fun draft value => { draft with symbol := some value }) (readOptional readString)) := rfl
    exact .single (fills_of found fresh reads)

theorem fillsAll_span {draft : Draft} (fresh : draft.span = none) {span : Option Span}
    (below : ∀ s ∈ span, s.line < limits.line) :
    FillsAll (readMember (readers limits)) draft
      (writtenMembers ((span.map fun span =>
        Value.object [("file", .string span.file), ("line", .number span.line)]).map
          fun value => ("span", value)).toList)
      { draft with span := span.map some } := by
  cases span with
  | none =>
    cases draft
    cases fresh
    exact .nil
  | some span =>
    have reads := (Span.read_render (below span rfl)).optional fun same =>
      absurd (Option.some.inj same) (by decide)
    have found : (readers limits).find? (fun reader => reader.name = "span")
        = some (.of "span" Draft.span (fun draft value => { draft with span := some value })
          (readOptional (Span.read limits))) := rfl
    exact .single (fills_of found fresh reads)

theorem fillsAll_hints {draft : Draft} (fresh : draft.hints = none) (hints : List String) :
    FillsAll (readMember (readers limits)) draft
      (writtenMembers ((if hints.isEmpty then none else some (Value.array (hints.map .string))).map
        fun value => ("hints", value)).toList)
      { draft with hints := if hints.isEmpty then none else some hints } := by
  cases hints with
  | nil =>
    cases draft
    cases fresh
    exact .nil
  | cons hint hints =>
    have found : (readers limits).find? (fun reader => reader.name = "hints")
        = some (.of "hints" Draft.hints (fun draft value => { draft with hints := some value })
          (readList readString)) := rfl
    exact .single (fills_of found fresh (readStrings_render (hint :: hints)))

/-- The draft that has all that is written for the diagnostic. -/
def Draft.written (d : Diagnostic) : Draft where
  code := some d.code
  severity := some d.severity
  component := some d.component
  message := some d.message
  contract := some d.contract
  symbol := d.symbol.map some
  span := d.span.map some
  hints := if d.hints.isEmpty then none else some d.hints

theorem complete?_written (d : Diagnostic) : (Draft.written d).complete? = some d := by
  obtain ⟨code, severity, component, message, contract, symbol, span, hints⟩ := d
  cases symbol <;> cases span <;> cases hints <;> rfl

theorem fillsAll_required (d : Diagnostic) :
    FillsAll (readMember (readers limits)) {}
      (writtenMembers [("code", .string d.code), ("severity", .string d.severity.label),
        ("componentId", .string d.component), ("message", .string d.message),
        ("contract", .string d.contract)])
      { code := some d.code, severity := some d.severity, component := some d.component
        message := some d.message, contract := some d.contract } :=
  .cons (fills_of (by rfl) rfl (readString_render _)) <|
  .cons (fills_of (by rfl) rfl (readVariant_render (Severity.ofLabel?_label _))) <|
  .cons (fills_of (by rfl) rfl (readString_render _)) <|
  .cons (fills_of (by rfl) rfl (readString_render _)) <|
  .cons (fills_of (by rfl) rfl (readString_render _)) .nil

/-- A diagnostic is read back from what is written for it. -/
theorem read_render {d : Diagnostic} (below : ∀ span ∈ d.span, span.line < limits.line) :
    ReadsAs (Diagnostic.read limits) d.toJson.render d := by
  refine readRecord_render ?_ (complete?_written d)
  simp only [List.map_append]
  exact (((fillsAll_required d).append (fillsAll_symbol rfl d.symbol)).append
    (fillsAll_span rfl below)).append (fillsAll_hints rfl d.hints)

end Diagnostic

namespace Report

theorem fillsAll_fields {report : Report} (fits : report.Fits limits) :
    FillsAll (readMember (readers limits)) {}
      (writtenMembers [("diagnostics", .array (report.diagnostics.map Diagnostic.toJson)),
        ("errorCount", .number report.errorCount), ("warningCount", .number report.warningCount),
        ("codes", .array (report.codes.map .string)),
        ("locations", .array (report.locations.map .string))])
      { diagnostics := some report.diagnostics, errorCount := some report.errorCount
        warningCount := some report.warningCount, codes := some report.codes
        locations := some report.locations } := by
  have diagnostics : ReadsAs (readList (Diagnostic.read limits))
      (Value.array (report.diagnostics.map Diagnostic.toJson)).render report.diagnostics := by
    rw [render_array]
    apply readList_commaSeparated
    rw [List.forall₂_map_left_iff, List.forall₂_same]
    exact fun d found => Diagnostic.read_render (fits.lines d found)
  -- the members are written in the order in which they are read back here
  exact
    .cons (fills_of (by rfl) rfl diagnostics) <|
    .cons (fills_of (by rfl) rfl (readNat_render fits.errors)) <|
    .cons (fills_of (by rfl) rfl (readNat_render fits.warnings)) <|
    .cons (fills_of (by rfl) rfl (readStrings_render report.codes)) <|
    .cons (fills_of (by rfl) rfl (readStrings_render report.locations)) .nil

theorem ofJson_of_fits {report : Report} (fits : report.Fits limits) :
    ofJson limits report.text = .ok report := by
  have reads : ReadsAs (Report.read limits) report.toJson.render report :=
    readRecord_render (fillsAll_fields fits) rfl
  have whole := reads.bare ends_nil
  rw [List.append_nil] at whole
  rw [ofJson, text, String.toList_ofList, whole]
  rfl

end Report

end

/-! Equal texts and equal digests -/

theorem Digest.hexDigit_injective {m n : Nat} (mSmall : m < 16) (nSmall : n < 16)
    (same : hexDigit m = hexDigit n) : m = n := by
  have all : ∀ i j : Fin 16, hexDigit i = hexDigit j → i = j := by decide
  exact Fin.mk.inj (all ⟨m, mSmall⟩ ⟨n, nSmall⟩ same)

/-- Bytes are determined by their hexadecimal digits. -/
theorem Digest.hex_injective {a b : List UInt8} (same : hex a = hex b) : a = b := by
  induction a generalizing b with
  | nil =>
    cases b with
    | nil => rfl
    | cons y b => exact absurd same (by simp [hex])
  | cons x a ih =>
    cases b with
    | nil => exact absurd same (by simp [hex])
    | cons y b =>
      simp only [hex, List.flatMap_cons, List.cons_append, List.nil_append,
        List.cons.injEq] at same
      -- a byte is two digits, and each of them is told from its character
      obtain ⟨high, low, later⟩ := same
      have xSmall := x.toNat_lt
      have ySmall := y.toNat_lt
      have highSame := hexDigit_injective (by omega) (by omega) high
      have lowSame := hexDigit_injective (by omega) (by omega) low
      have first : x = y := UInt8.toNat_inj.mp (by omega)
      rw [first, ih later]

namespace Report

/-- The bytes of the text of the report. -/
def bytes (report : Report) : List UInt8 :=
  Scan.bytes report.text.toList

theorem fingerprint_eq (report : Report) :
    report.fingerprint = String.ofList (Digest.hex (Digest.sha256 report.bytes)) := by
  rw [bytes, text, String.toList_ofList]
  rfl

theorem exists_above_lines (diagnostics : List Diagnostic) :
    ∃ limit, ∀ d ∈ diagnostics, ∀ span ∈ d.span, span.line < limit := by
  induction diagnostics with
  | nil => exact ⟨0, by simp⟩
  | cons d diagnostics ih =>
    obtain ⟨limit, above⟩ := ih
    let line := (d.span.map Span.line).getD 0
    refine ⟨limit + line + 1, fun e found span spanned => ?_⟩
    rcases List.mem_cons.mp found with rfl | later
    · have same : line = span.line := by simp [line, Option.mem_def.mp spanned]
      omega
    · have := above e later span spanned
      omega

/-- Whatever its numbers are, there are limits above those of two reports. -/
theorem exists_fits (report other : Report) :
    ∃ limits, report.Fits limits ∧ other.Fits limits := by
  obtain ⟨limit, above⟩ := exists_above_lines (report.diagnostics ++ other.diagnostics)
  let count := report.errorCount + report.warningCount + other.errorCount + other.warningCount + 1
  refine ⟨⟨limit, count⟩, ⟨?_, ?_, ?_⟩, ⟨?_, ?_, ?_⟩⟩
  · change _ < count
    omega
  · change _ < count
    omega
  · exact fun d found => above d (List.mem_append_left _ found)
  · change _ < count
    omega
  · change _ < count
    omega
  · exact fun d found => above d (List.mem_append_right _ found)

theorem eq_of_bytes {report other : Report} (same : other.bytes = report.bytes) :
    other = report := by
  -- under limits that fit both, both are read from the one text
  obtain ⟨limits, fits, otherFits⟩ := exists_fits report other
  have decoded := Scan.fromUTF8?_bytes other.text.toList
  have sameBytes : Scan.bytes other.text.toList = Scan.bytes report.text.toList := same
  rw [sameBytes, Scan.fromUTF8?_bytes, String.ofList_toList, String.ofList_toList] at decoded
  have sameText : report.text = other.text := Option.some.inj decoded
  have read := ofJson_of_fits fits
  rw [sameText, ofJson_of_fits otherFits] at read
  exact Except.ok.inj read

/-- A report is read back from the text whose bytes its fingerprint is the digest of. So no two
reports have the same bytes, and if they have the same fingerprint, their bytes collide. -/
theorem ofJson_text (limits : Limits) (report : Report) :
    report.fingerprint = String.ofList (Digest.hex (Digest.sha256 report.bytes))
      ∧ (report.Fits limits → ofJson limits report.text = .ok report)
      ∧ (∀ other : Report, other ≠ report → other.bytes ≠ report.bytes)
      ∧ ∀ other : Report, other.fingerprint = report.fingerprint → other = report
        ∨ other.bytes ≠ report.bytes
          ∧ Digest.sha256 other.bytes = Digest.sha256 report.bytes := by
  refine ⟨fingerprint_eq report, ofJson_of_fits, ?_, ?_⟩
  · intro other different same
    exact different (eq_of_bytes same)
  · intro other same
    rw [fingerprint_eq, fingerprint_eq] at same
    have digests := Digest.hex_injective (String.ofList_injective same)
    by_cases sameBytes : other.bytes = report.bytes
    · exact .inl (eq_of_bytes sameBytes)
    · exact .inr ⟨sameBytes, digests⟩

/-- A report whose text has escapes, a place and a hint, but no symbol. -/
def hinted : Report :=
  .ofDiagnostics [{
    code := "X", severity := .warning, component := "a", message := "\"\n", contract := "c"
    span := some ⟨"a.ts", 7⟩, hints := ["h"] }]

theorem ofJson_text_hinted :
    ofJson ⟨UInt32.size, UInt64.size⟩ hinted.text = .ok hinted
      ∧ bytes (ofDiagnostics []) ≠ hinted.bytes
      ∧ (hinted = hinted ∨ hinted.bytes ≠ hinted.bytes
        ∧ Digest.sha256 hinted.bytes = Digest.sha256 hinted.bytes) := by
  obtain ⟨-, read, differ, collide⟩ := ofJson_text ⟨UInt32.size, UInt64.size⟩ hinted
  have fits : hinted.Fits ⟨UInt32.size, UInt64.size⟩ := by
    refine ⟨by decide, by decide, ?_⟩
    simp [hinted, ofDiagnostics, UInt32.size]
  exact ⟨read fits, differ _ (by decide), collide hinted rfl⟩

end Report

end Concord
