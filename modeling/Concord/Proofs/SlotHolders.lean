import Concord.Proofs.ComponentIndependence
import Mathlib.Data.List.Perm.Basic

/-!
What a component holds. Of the files that claim a slot the first one in order gets it and every
later one is turned away with a diagnostic; what is read from a file that gets its slot depends on
that file alone. So after any list of files the entries are those of the first claimants, in the
order of their slots, and the conflicts are one for each file turned away and what reading the
others found.
-/
namespace Concord

open Concord.Export

/-! Entries of the two maps -/

namespace Component

/-- The file in a slot, with the symbols of the slot. -/
def entry? (component : Component) (slot : Slot) : Option Entry :=
  (component.filesByRole.get? slot).map fun file =>
    ⟨file, (component.symbolsByRole.get? slot).getD []⟩

/-- The files of a component in the order of their slots, each with the symbols of its slot. -/
def entries (component : Component) : List Entry :=
  component.filesByRole.pairs.map fun pair =>
    ⟨pair.2, (component.symbolsByRole.get? pair.1).getD []⟩

variable {component : Component} {file : SourceFile} {slot : Slot}

theorem symbols_eq {role : Role} {entry : Entry}
    (found : component.entry? ⟨role, none⟩ = some entry) :
    component.symbols role = entry.symbols := by
  obtain ⟨file, -, rfl⟩ := Option.map_eq_some_iff.mp found
  rfl

namespace Aligned

variable (aligned : component.Aligned)

include aligned

theorem get?_eq_none_iff :
    component.symbolsByRole.get? slot = none ↔ component.filesByRole.get? slot = none := by
  rw [SlotMap.get?_eq_none_iff, SlotMap.get?_eq_none_iff, aligned.sameSlots]

/-- An entry is found under its slot. -/
theorem mem_entries_iff {entry : Entry} :
    entry ∈ component.entries ↔ component.entry? entry.file.slot = some entry := by
  rw [entries, List.mem_map, entry?, Option.map_eq_some_iff]
  constructor
  · rintro ⟨⟨slot, file⟩, kept, rfl⟩
    have found := SlotMap.get?_eq_some_iff.mpr kept
    -- a file is kept under its own slot
    have same := aligned.own slot file found
    simp only [same]
    exact ⟨file, found, rfl⟩
  · rintro ⟨file, found, same⟩
    exact ⟨_, SlotMap.get?_eq_some_iff.mp found, same⟩

theorem mem_entries_of_entry? {entry : Entry} (found : component.entry? slot = some entry) :
    entry ∈ component.entries ∧ entry.file.slot = slot := by
  -- a component keeps a file under the slot that the file names
  have own : entry.file.slot = slot := by
    obtain ⟨file, kept, rfl⟩ := Option.map_eq_some_iff.mp found
    exact aligned.own slot file kept
  rw [aligned.mem_entries_iff, own]
  exact ⟨found, rfl⟩

/-- The symbols of a slot are those of an entry, since some file has the slot. -/
theorem exists_entry {symbols : List Symbol}
    (exported : component.symbolsByRole.get? slot = some symbols) :
    ∃ entry ∈ component.entries, entry.file.slot = slot ∧ entry.symbols = symbols := by
  -- the maps have the same slots, so the symbols have a file beside them
  cases kept : component.filesByRole.get? slot with
  | none =>
    rw [aligned.get?_eq_none_iff.mpr kept] at exported
    cases exported
  | some file =>
    have found : component.entry? slot = some ⟨file, symbols⟩ := by
      rw [ entry?, kept, exported]
      rfl
    exact ⟨_, (aligned.mem_entries_of_entry? found).1, aligned.own slot file kept, rfl⟩

theorem map_slot_entries :
    (component.entries.map fun entry => entry.file.slot) = component.filesByRole.keys := by
  rw [entries, List.map_map, SlotMap.keys]
  refine List.map_congr_left ?_
  rintro ⟨slot, file⟩ kept
  exact aligned.own slot file (SlotMap.get?_eq_some_iff.mpr kept)

theorem entries_pairwise :
    component.entries.Pairwise fun a b => a.file.slot.before b.file.slot = true := by
  -- the map of the files is ordered by its slots, and these are the files' own
  have ordered : component.filesByRole.keys.Pairwise fun a b => a.before b = true :=
    List.pairwise_map.mpr component.filesByRole.ordered
  rw [← aligned.map_slot_entries] at ordered
  exact List.pairwise_map.mp ordered

theorem exists_of_get? (found : component.filesByRole.get? slot = some file) :
    ∃ entry ∈ component.entries, entry.file = file := by
  have kept : component.entry? slot =
      some ⟨file, (component.symbolsByRole.get? slot).getD []⟩ := by
    rw [ entry?, found]
    rfl
  exact ⟨_, (aligned.mem_entries_of_entry? kept).1, rfl⟩

theorem exists_of_symbol? {role : Role} {name : String} {symbol : Symbol}
    (found : component.symbol? role name = some symbol) :
    ∃ entry ∈ component.entries, symbol ∈ entry.symbols := by
  -- symbols are looked up in a list that is empty where the slot is free
  have member := List.mem_of_find?_eq_some found
  rw [symbols] at member
  cases exported : component.symbolsByRole.get? ⟨role, none⟩ with
  | none =>
    rw [exported] at member
    cases member
  | some symbols =>
    obtain ⟨entry, stored, -, rfl⟩ := aligned.exists_entry exported
    rw [exported] at member
    exact ⟨entry, stored, member⟩

/-- The two maps are read together, slot by slot. -/
theorem symbolsByRole_pairs : component.symbolsByRole.pairs =
    component.entries.map fun entry => (entry.file.slot, entry.symbols) := by
  rw [SlotMap.pairs_eq_map_keys [] component.symbolsByRole, aligned.sameSlots, SlotMap.keys,
    entries, List.map_map, List.map_map]
  refine List.map_congr_left ?_
  rintro ⟨slot, file⟩ kept
  have same := aligned.own slot file (SlotMap.get?_eq_some_iff.mpr kept)
  simp only [Function.comp_apply, same]

end Aligned

/-! One more file -/

/-- A file that gets its slot adds its entry and leaves the others as they are. -/
theorem entries_ingest_perm (own : file.component = component.id)
    (free : component.filesByRole.get? file.slot = none) :
    (component.ingest file).entries.Perm (Entry.ofFile file :: component.entries) := by
  have absent := SlotMap.get?_eq_none_iff.mp free
  rw [ingest_of_free own free]
  -- the entries are read off both maps, so besides the new one the others must find the same
  -- symbols as before
  refine ((SlotMap.insert_perm absent).map _).trans (.of_eq ?_)
  rw [List.map_cons, SlotMap.get?_insert, if_pos rfl, entries]
  refine congrArg (List.cons _) (List.map_congr_left ?_)
  rintro ⟨slot, kept⟩ member
  have differ : slot ≠ file.slot := by
    rintro rfl
    exact absent (List.mem_map.mpr ⟨_, member, rfl⟩)
  rw [SlotMap.get?_insert, if_neg differ]

/-- What a component holds after files were taken in: the entries of those that claimed their slot
first, and a conflict for each of the others beside what was found in the first ones. -/
structure Holds (component : Component) (files : List SourceFile) : Prop where
  entries : component.entries.Perm ((firsts SourceFile.slot files).map Entry.ofFile)
  aligned : component.Aligned
  conflicts : ∃ refusals,
    component.conflicts.Perm
        (refusals ++ (firsts SourceFile.slot files).flatMap SourceFile.findings) ∧
      List.Forall₂ (fun (file : SourceFile) (refusal : Diagnostic) =>
          refusal.Reports .duplicateRole component.id none (file.spanAt 1))
        (repeats SourceFile.slot files) refusals

namespace Holds

variable {files : List SourceFile}

/-- The slots that are taken are those that were claimed. -/
theorem mem_keys_iff (holds : component.Holds files) {slot : Slot} :
    slot ∈ component.filesByRole.keys ↔ slot ∈ files.map SourceFile.slot := by
  have same : (fun file => (Entry.ofFile file).file.slot) = SourceFile.slot := by
    funext file
    exact Entry.ofFile_slot file
  rw [← holds.aligned.map_slot_entries, (holds.entries.map fun entry => entry.file.slot).mem_iff,
    List.map_map, Function.comp_def, same, mem_map_firsts]

theorem ingest (holds : component.Holds files) (own : file.component = component.id) :
    (component.ingest file).Holds (files ++ [file]) := by
  have aligned := holds.aligned.ingest own
  obtain ⟨refusals, conflicts, refused⟩ := holds.conflicts
  cases claimed : component.filesByRole.get? file.slot with
  | some kept =>
    -- the slot is taken: the file repeats it and leaves a refusal behind
    have known : file.slot ∈ files.map SourceFile.slot := by
      rw [← holds.mem_keys_iff]
      by_contra free
      rw [SlotMap.get?_eq_none_iff.mpr free] at claimed
      cases claimed
    obtain ⟨refusal, reports, taken⟩ := ingest_of_taken claimed
    rw [taken] at aligned ⊢
    refine ⟨?_, aligned, refusals ++ [refusal], ?_, ?_⟩
    · rw [firsts_concat, if_pos known]
      exact holds.entries
    · rw [firsts_concat, if_pos known, List.append_assoc]
      refine (conflicts.append_right [refusal]).trans ?_
      rw [List.append_assoc]
      exact List.perm_append_comm.append_left refusals
    · rw [repeats_concat, if_pos known]
      exact List.rel_append refused (.cons reports .nil)
  | none =>
    -- the slot is free: the file is the first to claim it and is kept
    have new : file.slot ∉ files.map SourceFile.slot := by
      rw [← holds.mem_keys_iff]
      exact SlotMap.get?_eq_none_iff.mp claimed
    have entries := entries_ingest_perm own claimed
    rw [ingest_of_free own claimed] at aligned entries ⊢
    refine ⟨?_, aligned, refusals, ?_, ?_⟩
    · rw [firsts_concat, if_neg new, List.map_append, List.map_singleton]
      refine entries.trans ((holds.entries.cons _).trans ?_)
      exact (List.perm_append_singleton _ _).symm
    · rw [firsts_concat, if_neg new, List.flatMap_append, List.flatMap_singleton,
        ← List.append_assoc]
      exact conflicts.append_right _
    · rw [repeats_concat, if_neg new]
      exact refused

theorem exists_file (holds : component.Holds files) {entry : Entry}
    (member : entry ∈ component.entries) :
    ∃ file ∈ firsts SourceFile.slot files, Entry.ofFile file = entry :=
  List.mem_map.mp (holds.entries.mem_iff.mp member)

end Holds

end Component

/-- A gathered component holds its own files. -/
theorem Index.gather_holds (files : List SourceFile) (id : String) :
    (gather files id).Holds (files.filter (SourceFile.belongsTo id)) := by
  -- by induction from the end of the list: the last file is taken in if it belongs here
  induction files using List.reverseRecOn with
  | nil => exact ⟨.refl _, (Component.sound_empty id).toAligned, [], .refl _, .nil⟩
  | append_singleton files file ih =>
    rw [gather_append, List.filter_append]
    cases belongs : file.belongsTo id with
    | false => simpa [belongs] using ih
    | true =>
      have own : file.component = (gather files id).id := by
        rw [gather_id]
        simp only [SourceFile.belongsTo, Bool.and_eq_true, decide_eq_true_eq] at belongs
        exact belongs.2
      simpa [belongs] using ih.ingest own

/-! Sources -/

variable {conventions : Conventions} {sources : List Source}

theorem Source.parseFailed_of_mem_files {file : SourceFile}
    (member : file ∈ Source.files conventions sources) : file.parseFailed = false := by
  obtain ⟨source, -, rfl⟩ := Source.mem_files.mp member
  rfl

/-- Each component of an index holds the files that belong to it. -/
theorem Source.holds_of_mem_gather {component : Component}
    (member : component ∈ (Source.componentIds conventions sources).map
      (Index.gather (Source.files conventions sources))) :
    component.Holds ((Source.files conventions sources).filter
      (SourceFile.belongsTo component.id)) := by
  obtain ⟨id, -, rfl⟩ := List.mem_map.mp member
  rw [Index.gather_id]
  exact Index.gather_holds _ id

theorem Source.nodup_map_gather :
    (((Source.componentIds conventions sources).map
      (Index.gather (Source.files conventions sources))).map Component.id).Nodup := by
  rw [List.map_map, Function.comp_def]
  simp only [Index.gather_id, List.map_id']
  exact Source.nodup_componentIds

end Concord
