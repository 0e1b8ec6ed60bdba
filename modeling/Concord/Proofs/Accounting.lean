import Concord.Proofs.Clauses
import Concord.Proofs.SlotHolders

/-!
Where every source ends. A source that no role claims is stray; any other one is held in a slot of
its component or turned away, and then the component has a diagnostic for it. Beside these a
component reports only what it found in the files of its slots, so nothing is lost without a trace
and nothing is reported without a cause.
-/
namespace Concord

open Concord.Export

/-- Elements can be grouped by distinct keys: those with one of the keys are kept, and no others. -/
theorem flatMap_filter_perm {α κ : Type} [DecidableEq κ] (key : α → κ) (xs : List α)
    {keys : List κ} (distinct : keys.Nodup) :
    (keys.flatMap fun k => xs.filter fun x => key x = k).Perm
      (xs.filter fun x => key x ∈ keys) := by
  induction keys with
  | nil => simp
  | cons k keys ih =>
    obtain ⟨fresh, later⟩ := List.nodup_cons.mp distinct
    -- the elements with one of the keys are those with the first and those with a later one
    have divided := List.filter_append_perm (fun x => decide (key x = k))
      (xs.filter fun x => key x ∈ k :: keys)
    have first : (xs.filter fun x => key x ∈ k :: keys).filter (fun x => key x = k) =
        xs.filter fun x => key x = k := by
      rw [List.filter_filter]
      apply List.filter_congr
      intro x _
      by_cases same : key x = k <;> simp [same]
    have others : (xs.filter fun x => key x ∈ k :: keys).filter (fun x => !decide (key x = k)) =
        xs.filter fun x => key x ∈ keys := by
      rw [List.filter_filter]
      apply List.filter_congr
      intro x _
      by_cases same : key x = k
      · simp [same, fresh]
      · simp [same]
    rw [first, others] at divided
    rw [List.flatMap_cons]
    exact ((ih later).append_left _).trans divided

theorem Index.inOrder_refl (file : SourceFile) : inOrder file file = true :=
  inOrder_iff.mpr (Or.inr ⟨rfl, le_refl _⟩)

namespace Component

/-- A component accounts for its files among `files`: its slots hold those of least path and text,
`dropped` are the others, and its conflicts are one refusal for each file that was dropped and what
was found in the files that are held. -/
structure Accounts (component : Component) (files dropped : List SourceFile) : Prop where
  claimed : ∀ file ∈ component.entries.map Entry.origin ++ dropped,
    file.slot.role ≠ .unknown ∧ file.component = component.id
  least : ∀ entry ∈ component.entries, ∀ other ∈ files, other.component = component.id →
    other.slot = entry.file.slot → Index.inOrder entry.origin other = true
  contested : ∀ file ∈ dropped, ∃ entry ∈ component.entries, entry.file.slot = file.slot
  diagnosed : ∃ (refusals : List Diagnostic) (findings : Entry → List Diagnostic),
    component.conflicts.Perm (refusals ++ component.entries.flatMap findings) ∧
      List.Forall₂ (fun (file : SourceFile) (refusal : Diagnostic) =>
          refusal.Reports .duplicateRole component.id none (file.spanAt 1)) dropped refusals ∧
      ∀ entry ∈ component.entries, entry.Records entry.origin (findings entry)

namespace Holds

variable {component : Component} {own : List SourceFile}

/-- The files in the slots are those that claimed them first. -/
theorem origins_perm (holds : component.Holds own)
    (fresh : ∀ file ∈ own, file.parseFailed = false) :
    (component.entries.map Entry.origin).Perm (firsts SourceFile.slot own) := by
  have origins : ((firsts SourceFile.slot own).map Entry.ofFile).map Entry.origin =
      firsts SourceFile.slot own := by
    rw [List.map_map]
    refine (List.map_congr_left ?_).trans (List.map_id _)
    intro file first
    exact Entry.origin_ofFile (fresh file (mem_of_mem_firsts first))
  rw [← origins]
  exact holds.entries.map Entry.origin

theorem accounts {files : List SourceFile}
    (holds : component.Holds (files.filter (SourceFile.belongsTo component.id)))
    (fresh : ∀ file ∈ files, file.parseFailed = false) (sorted : Index.Sorted files) :
    component.Accounts files
      (repeats SourceFile.slot (files.filter (SourceFile.belongsTo component.id))) := by
  have unmarked : ∀ file ∈ files.filter (SourceFile.belongsTo component.id),
      file.parseFailed = false := fun file given => fresh file (List.mem_of_mem_filter given)
  have origins := holds.origins_perm unmarked
  have divided := (origins.append_right _).trans (firsts_append_repeats_perm SourceFile.slot
    (files.filter (SourceFile.belongsTo component.id)))
  constructor
  · intro file member
    have belongs := (List.mem_filter.mp (divided.mem_iff.mp member)).2
    simpa [SourceFile.belongsTo, SourceFile.isClaimed] using belongs
  · intro entry member other there same slot
    obtain ⟨file, first, rfl⟩ := holds.exists_file member
    obtain ⟨given, belongs⟩ := List.mem_filter.mp (mem_of_mem_firsts first)
    rw [Entry.origin_ofFile (fresh file given)]
    rw [Entry.ofFile_slot] at slot
    -- the other file claims the slot of a file of this component, so it belongs to it as well
    have rival : other ∈ files.filter (SourceFile.belongsTo component.id) := by
      refine List.mem_filter.mpr ⟨there, ?_⟩
      simp only [SourceFile.belongsTo, SourceFile.isClaimed, Bool.and_eq_true,
        decide_eq_true_eq] at belongs ⊢
      exact ⟨slot ▸ belongs.1, same⟩
    have ordered : (files.filter (SourceFile.belongsTo component.id)).Pairwise
        fun a b => Index.inOrder a b = true := sorted.filter _
    exact rel_of_mem_firsts Index.inOrder_refl ordered first rival slot
  · intro file again
    obtain ⟨holder, first, slot⟩ := exists_first_of_mem_repeats again
    refine ⟨Entry.ofFile holder, ?_, ?_⟩
    · exact holds.entries.mem_iff.mpr (List.mem_map_of_mem first)
    · rw [Entry.ofFile_slot, slot]
  · obtain ⟨refusals, conflicts, refused⟩ := holds.conflicts
    refine ⟨refusals, fun entry => entry.origin.findings, ?_, refused, ?_⟩
    · have found := origins.flatMap_right SourceFile.findings
      rw [List.flatMap_map] at found
      exact conflicts.trans (found.symm.append_left refusals)
    · intro entry member
      obtain ⟨file, first, rfl⟩ := holds.exists_file member
      simp only [Entry.origin_ofFile (unmarked file (mem_of_mem_firsts first))]
      exact Entry.ofFile_records file

end Holds

end Component

/-! Sources -/

variable {conventions : Conventions} {sources : List Source}

/-- The files that some role claims, component by component. -/
theorem Source.flatMap_ofComponent_perm :
    ((Source.componentIds conventions sources).flatMap fun id =>
        (Source.files conventions sources).filter (SourceFile.belongsTo id)).Perm
      ((Source.files conventions sources).filter SourceFile.isClaimed) := by
  have distinct : (Source.componentIds conventions sources).Nodup := Source.nodup_componentIds
  -- grouping by distinct keys keeps every file whose key is among them, and here all are
  have grouped := flatMap_filter_perm SourceFile.component
    ((Source.files conventions sources).filter SourceFile.isClaimed) distinct
  have all : ((Source.files conventions sources).filter SourceFile.isClaimed).filter
      (fun file => file.component ∈ Source.componentIds conventions sources) =
      (Source.files conventions sources).filter SourceFile.isClaimed := by
    rw [List.filter_eq_self]
    intro file member
    obtain ⟨given, claimed⟩ := List.mem_filter.mp member
    obtain ⟨source, known, rfl⟩ := Source.mem_files.mp given
    refine decide_eq_true (Source.mem_componentIds.mpr ⟨source, ?_⟩)
    exact Source.mem_ofComponent.mpr ⟨known, by simp [SourceFile.belongsTo, claimed]⟩
  have owned (id : String) : ((Source.files conventions sources).filter
      SourceFile.isClaimed).filter (fun file => file.component = id) =
      (Source.files conventions sources).filter (SourceFile.belongsTo id) := by
    rw [List.filter_filter]
    apply List.filter_congr
    intro file _
    exact Bool.and_comm _ _
  rw [all] at grouped
  simpa only [owned] using grouped

/-- Every source ends in one place: it is stray, held in a slot, or dropped, and the components
account for those of the last two kinds. -/
theorem ofSources_accounts (conventions : Conventions) (sources : List Source)
    (named : ∀ source ∈ sources, source.isBlank = false) :
    ∃ (index : Index) (dropped : Component → List SourceFile),
      Index.ofSources conventions sources = .ok index ∧
      (sources.map (SourceFile.ofSource conventions)).Perm
        (index.stray ++ index.components.flatMap fun component =>
          component.entries.map Entry.origin ++ dropped component) ∧
      (∀ file ∈ index.stray, file.slot.role = .unknown) ∧
      (index.components.map Component.id).Nodup ∧
      ∀ component ∈ index.components,
        component.Accounts (sources.map (SourceFile.ofSource conventions))
          (dropped component) := by
  refine ⟨_, fun component => repeats SourceFile.slot
    ((Source.files conventions sources).filter (SourceFile.belongsTo component.id)),
    ofSources_of_no_blank conventions named, ?_⟩
  rw [ofFiles_eq_gather]
  have fresh : ∀ file ∈ Source.files conventions sources, file.parseFailed = false :=
    fun file => Source.parseFailed_of_mem_files
  refine ⟨?_, ?_, Source.nodup_map_gather, ?_⟩
  · have sorted : (sources.map (SourceFile.ofSource conventions)).Perm
        (Source.files conventions sources) := (List.mergeSort_perm _ _).symm
    -- the files divide into the claimed and the stray, and the claimed into those held and those
    -- dropped
    have parted := (List.filter_append_perm SourceFile.isClaimed
      (Source.files conventions sources)).symm.trans List.perm_append_comm
    have held (id : String) : ((Source.files conventions sources).filter
        (SourceFile.belongsTo id)).Perm
        ((Index.gather (Source.files conventions sources) id).entries.map Entry.origin ++
          repeats SourceFile.slot ((Source.files conventions sources).filter
            (SourceFile.belongsTo id))) := by
      have origins := (Index.gather_holds (Source.files conventions sources) id).origins_perm
        fun file given => fresh file (List.mem_of_mem_filter given)
      exact (firsts_append_repeats_perm _ _).symm.trans (origins.symm.append_right _)
    have components := Source.flatMap_ofComponent_perm.symm.trans
      (List.Perm.flatMap_left (Source.componentIds conventions sources) fun id _ => held id)
    rw [Source.strayFiles, ← Source.filter_files, List.flatMap_map]
    simp only [Index.gather_id]
    exact sorted.trans (parted.trans (components.append_left _))
  · intro file stray
    rw [Source.strayFiles, List.mem_mergeSort] at stray
    have unclaimed := (List.mem_filter.mp stray).2
    simpa [SourceFile.isClaimed] using unclaimed
  · intro component member
    have holds := Source.holds_of_mem_gather member
    have accounts := holds.accounts fresh (Index.sorted_mergeSort _)
    -- the account speaks of the sorted files, which are the given ones in another order
    refine { accounts with least := ?_ }
    intro entry stored other given
    exact accounts.least entry stored other (List.mem_mergeSort.mpr given)

/-- The second text of a path is dropped, and the component says so. -/
theorem ofSources_accounts_contested :
    ∃ index, Index.ofSources .storesOnly Source.contested = .ok index ∧
      index.stray.map SourceFile.path = ["b/x.ts"] ∧
      ∃ component ∈ index.components, component.id = "b/x" ∧
        (component.entries.map fun entry => (entry.file.text, entry.symbols.map Symbol.name)) =
          [("export const a = 1, a = 2", ["a"])] ∧
        ∃ dropped,
          component.Accounts (Source.contested.map (SourceFile.ofSource .storesOnly)) dropped ∧
          SourceFile.ofSource .storesOnly ⟨"b\\x.store.ts", "export const a = f("⟩ ∈ dropped ∧
          ∃ d ∈ component.conflicts,
            d.Reports .duplicateRole "b/x" none ⟨"b/x.store.ts", 1⟩ := by
  obtain ⟨index, dropped, indexed, placed, stray, -, accounts⟩ :=
    ofSources_accounts .storesOnly Source.contested (by decide)
  have inOrder : Index.ofSources .storesOnly Source.contested = .ok _ :=
    Index.ofSources_of_inOrder (by decide) (by decide +kernel)
  obtain rfl := Except.ok.inj (indexed.symm.trans inOrder)
  refine ⟨_, indexed, by decide +kernel, ?_⟩
  have held : ∀ component ∈ (Index.ofOrdered
        (Source.contested.map (SourceFile.ofSource .storesOnly))).components,
      (∀ entry ∈ component.entries, entry.file.text ≠ "export const a = f(") ∧
      (component.id = "b/x" →
        (component.entries.map fun entry => (entry.file.text, entry.symbols.map Symbol.name)) =
          [("export const a = 1, a = 2", ["a"])]) := by
    decide +kernel
  -- the second text is neither stray nor in a slot, so it was dropped
  have given : SourceFile.ofSource .storesOnly ⟨"b\\x.store.ts", "export const a = f("⟩ ∈
      Source.contested.map (SourceFile.ofSource .storesOnly) :=
    List.mem_map_of_mem (by decide)
  rcases List.mem_append.mp (placed.mem_iff.mp given) with none | claimed
  · exact absurd (stray _ none) (by decide +kernel)
  obtain ⟨component, member, claimed⟩ := List.mem_flatMap.mp claimed
  have here := ((accounts component member).claimed _ claimed).2
  rcases List.mem_append.mp claimed with origin | lost
  · obtain ⟨entry, stored, same⟩ := List.mem_map.mp origin
    exact absurd (congrArg SourceFile.text same) ((held component member).1 entry stored)
  have id : component.id = "b/x" := here.symm.trans (by decide +kernel)
  obtain ⟨refusals, findings, conflicts, refused, -⟩ := (accounts component member).diagnosed
  obtain ⟨refusal, told, reports⟩ := Export.exists_mem_of_forall₂ refused lost
  refine ⟨component, member, id, (held component member).2 id, _, accounts component member, lost,
    refusal, conflicts.mem_iff.mpr (List.mem_append_left _ told), ?_⟩
  rw [← id]
  exact reports

end Concord
