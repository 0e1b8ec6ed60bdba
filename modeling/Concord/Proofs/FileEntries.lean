import Concord.Component.Index
import Concord.Proofs.FirstOccurrences
import Mathlib.Data.List.Forall2

/-!
What is read from one file. A text that cannot be read leaves its fault and no symbols; of any other
text each name is kept once, with its first export, and every later export of the name is reported.
What is kept depends on the file alone.
-/
namespace Concord

open Concord.Export

/-- A file in its slot, with the symbols that are kept of it. -/
structure Entry where
  file : SourceFile
  symbols : List Symbol
  deriving DecidableEq, Repr

/-- What a file leaves in a slot that is free. -/
def Entry.ofFile (file : SourceFile) : Entry :=
  match extract file.text.toList with
  | .error _ => ⟨{ file with parseFailed := true }, []⟩
  | .ok exports => ⟨file, (Component.takeSymbols file [] exports).1⟩

/-- What is found when a file is read: the conflicts of a component that has no other file. -/
def SourceFile.findings (file : SourceFile) : List Diagnostic :=
  (({ id := file.component } : Component).ingest file).conflicts

/-- A diagnostic for a name that a file exports once more. -/
def SourceFile.ReportsAgain (file : SourceFile) (again : Export) (found : Diagnostic) : Prop :=
  found.Reports .duplicateExport file.component (some again.name) (file.spanAt again.line)

/-- `entry` is what a file leaves in its slot and `findings` is what reading it found: the fault of
a text that cannot be read, or else the names that are exported again. -/
def Entry.Records (entry : Entry) (file : SourceFile) (findings : List Diagnostic) : Prop :=
  match extract file.text.toList with
  | .error imbalance =>
    entry = ⟨{ file with parseFailed := true }, []⟩ ∧
      ∃ fault : Diagnostic, findings = [fault] ∧
        fault.Reports .parseAmbiguous file.component none (file.spanAt imbalance.line)
  | .ok exports =>
    entry = ⟨file, (firsts Export.name exports).map (Symbol.ofExport file)⟩ ∧
      List.Forall₂ file.ReportsAgain (repeats Export.name exports) findings ∧
      exports.length = entry.symbols.length + findings.length

namespace Component

theorem find?_map_ofExport (file : SourceFile) (exports : List Export) (name : String) :
    ((firsts Export.name exports).map (Symbol.ofExport file)).find?
        (fun symbol => symbol.name = name) = none ↔ name ∉ exports.map Export.name := by
  rw [← mem_map_firsts, List.find?_eq_none]
  simp [Symbol.ofExport]

/-- Taking on the exports `rest` behind `done`: the symbols are those that come first in both, and
there is one diagnostic for each of `rest` that repeats a name. -/
theorem takeSymbols_spec (file : SourceFile) (done rest : List Export) :
    ∃ again, repeats Export.name (done ++ rest) = repeats Export.name done ++ again ∧
      (takeSymbols file ((firsts Export.name done).map (Symbol.ofExport file)) rest).1 =
        (firsts Export.name (done ++ rest)).map (Symbol.ofExport file) ∧
      List.Forall₂ file.ReportsAgain again
        (takeSymbols file ((firsts Export.name done).map (Symbol.ofExport file)) rest).2 := by
  induction rest generalizing done with
  | nil => exact ⟨[], by simp, by simp [takeSymbols], .nil⟩
  | cons found rest ih =>
    obtain ⟨again, repeated, symbols, diagnosed⟩ := ih (done ++ [found])
    rw [List.append_assoc, List.singleton_append] at repeated symbols
    rw [takeSymbols]
    split
    next unknown =>
      -- a new name: one more symbol and nothing to report
      have new := (find?_map_ofExport file done found.name).mp unknown
      rw [firsts_concat, if_neg new, List.map_append, List.map_singleton] at symbols diagnosed
      rw [repeats_concat, if_neg new] at repeated
      exact ⟨again, repeated, symbols, diagnosed⟩
    next first known =>
      -- a name that is known: the symbols stay and the export is reported
      have old : found.name ∈ done.map Export.name := by
        by_contra new
        rw [(find?_map_ofExport file done found.name).mpr new] at known
        cases known
      rw [firsts_concat, if_pos old] at symbols diagnosed
      rw [repeats_concat, if_pos old] at repeated
      refine ⟨found :: again, by simpa using repeated, symbols, .cons ?_ diagnosed⟩
      exact Diagnostic.breach_withSymbol_reports _ _ _ _ _

theorem takeSymbols_fst (file : SourceFile) (exports : List Export) :
    (takeSymbols file [] exports).1 =
      (firsts Export.name exports).map (Symbol.ofExport file) := by
  obtain ⟨again, -, symbols, -⟩ := takeSymbols_spec file [] exports
  exact symbols

theorem takeSymbols_snd (file : SourceFile) (exports : List Export) :
    List.Forall₂ file.ReportsAgain (repeats Export.name exports)
      (takeSymbols file [] exports).2 := by
  obtain ⟨again, repeated, -, diagnosed⟩ := takeSymbols_spec file [] exports
  rw [show repeats Export.name exports = again from repeated]
  exact diagnosed

end Component

theorem Entry.ofFile_records (file : SourceFile) :
    (Entry.ofFile file).Records file file.findings := by
  rw [Entry.Records, Entry.ofFile, SourceFile.findings, Component.ingest]
  cases read : extract file.text.toList with
  | error imbalance => exact ⟨rfl, _, rfl, Diagnostic.breach_reports _ _ _ _⟩
  | ok exports =>
    have diagnosed := Component.takeSymbols_snd file exports
    have divided := length_firsts_add_length_repeats Export.name exports
    refine ⟨?_, ?_, ?_⟩
    · exact congrArg (Entry.mk file) (Component.takeSymbols_fst file exports)
    · exact diagnosed
    · simp only [Component.takeSymbols_fst, List.length_map]
      rw [← divided, diagnosed.length_eq]
      rfl

/-- An entry keeps its file, but for the mark of a text that cannot be read. -/
theorem Entry.ofFile_file (file : SourceFile) :
    ∃ failed, (Entry.ofFile file).file = { file with parseFailed := failed } := by
  rw [Entry.ofFile]
  split
  · exact ⟨true, rfl⟩
  · exact ⟨file.parseFailed, rfl⟩

theorem Entry.ofFile_slot (file : SourceFile) : (Entry.ofFile file).file.slot = file.slot := by
  obtain ⟨failed, same⟩ := Entry.ofFile_file file
  rw [same]

/-- An entry whose symbols are those of its file. -/
structure Entry.Sound (entry : Entry) : Prop where
  owned : ∀ symbol ∈ entry.symbols, symbol.component = entry.file.component ∧
    symbol.slot = entry.file.slot ∧ symbol.span.file = entry.file.path
  names : (entry.symbols.map Symbol.name).Nodup
  unread : entry.file.parseFailed = true → entry.symbols = []

/-- The file of an entry as it was given. -/
def Entry.origin (entry : Entry) : SourceFile :=
  { entry.file with parseFailed := false }

theorem Entry.origin_ofFile {file : SourceFile} (fresh : file.parseFailed = false) :
    (Entry.ofFile file).origin = file := by
  obtain ⟨failed, same⟩ := Entry.ofFile_file file
  rw [Entry.origin, same, ← fresh]

theorem Entry.ofFile_sound {file : SourceFile} (fresh : file.parseFailed = false) :
    (Entry.ofFile file).Sound := by
  have records := Entry.ofFile_records file
  rw [Entry.Records] at records
  split at records
  · obtain ⟨entry, -⟩ := records
    rw [entry]
    exact ⟨by simp, List.nodup_nil, fun _ => rfl⟩
  · obtain ⟨entry, -⟩ := records
    rw [entry]
    refine ⟨?_, ?_, ?_⟩
    · intro symbol member
      obtain ⟨found, -, rfl⟩ := List.mem_map.mp member
      exact ⟨rfl, rfl, rfl⟩
    · rw [List.map_map]
      exact nodup_map_firsts
    · intro failed
      rw [fresh] at failed
      cases failed

end Concord
