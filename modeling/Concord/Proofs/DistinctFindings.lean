import Concord.Proofs.StoreAndView
import Mathlib.Data.Option.Basic

/-!
When the rules repeat themselves. Reads are listed once for each member and a slot keeps each name
once, so what is said of them is said once; names of different slots are told apart by the paths of
their files. The keys of a projection are the exception: a key that is written twice and not read is
reported twice, and nothing else ever is.
-/
namespace Concord

open Concord.Access

/-- What a diagnostic says, and of what: its code, name, place and message. -/
def Diagnostic.finding (d : Diagnostic) : String × Option String × Option Span × String :=
  (d.code, d.symbol, d.span, d.message)

@[simp] theorem Diagnostic.finding_escalate (d : Diagnostic) (strict : Bool) :
    (d.escalate strict).finding = d.finding := by
  cases strict <;> rfl

/-- Findings about distinct names are distinct. -/
theorem nodup_map_finding {found : List Diagnostic} (names : (found.map Diagnostic.symbol).Nodup) :
    (found.map Diagnostic.finding).Nodup := by
  apply List.Nodup.of_map fun finding => finding.2.1
  rw [List.map_map]
  exact names

/-! Reads -/

namespace Access

/-- Each member is taken once, and none that was seen before. -/
theorem nodup_firstReads (seen : List (List Char)) (hits : List (Nat × List Char)) :
    ((firstReads seen hits).map Prod.snd).Nodup ∧
      ∀ member ∈ (firstReads seen hits).map Prod.snd, member ∉ seen := by
  -- by induction over the hits, with the members that were seen as an argument
  induction hits generalizing seen with
  | nil => simp [firstReads]
  | cons hit rest ih =>
    rw [firstReads]
    split
    next => exact ih seen
    next new =>
      obtain ⟨distinct, fresh⟩ := ih (hit.2 :: seen)
      rw [List.map_cons]
      constructor
      · refine List.nodup_cons.mpr ⟨?_, distinct⟩
        intro again
        exact fresh hit.2 again List.mem_cons_self
      · intro member taken
        rcases List.mem_cons.mp taken with rfl | taken
        · simpa using new
        · exact fun old => fresh member taken (List.mem_cons_of_mem _ old)

theorem nodup_names_membersOf [ScriptParser] (root : String) (text : List Char) :
    ((membersOf root text).map Member.name).Nodup := by
  have injective : Function.Injective String.ofList := fun _ _ => String.ofList_injective
  rw [membersOf, members, List.map_map, Function.comp_def]
  have texts := ((nodup_firstReads [] (List.mergeSort (((reads text).filter fun read =>
    read.object = root.toList).map fun read => (read.offset, read.member))
      fun a b => a.1 ≤ b.1)).1).map injective
  rwa [List.map_map] at texts

end Access

namespace Component

variable [ScriptParser] {component : Component} {conventions : Conventions}

/-! Findings of one contract -/

theorem nodup_storeCalls :
    ((component.findings conventions .unknownStoreMethod).map Diagnostic.finding).Nodup := by
  apply nodup_map_finding
  rw [findings]
  cases stored : component.readable? .store with
  | none => simp [storeCalls, stored]
  | some store =>
    cases handled : component.readable? .handlers with
    | none => simp [storeCalls, stored, handled]
    | some handlers =>
      have names := nodup_names_membersOf conventions.storeHandle handlers.text.toList
      have named : (fun read : Member => some read.name) = some ∘ Member.name := rfl
      rw [map_symbol_storeCalls stored handled, named, ← List.map_map]
      exact (names.sublist (List.filter_sublist.map Member.name)).map (Option.some_injective String)

theorem nodup_missingFields :
    ((component.findings conventions .missingViewField).map Diagnostic.finding).Nodup := by
  apply nodup_map_finding
  rw [findings]
  split
  next store view keys _ _ _ =>
    rw [map_symbol_missingFields]
    have names := nodup_names_membersOf conventions.viewRoot view.text.toList
    exact (names.sublist List.filter_sublist).map (Option.some_injective String)
  · exact List.nodup_nil

/-- A key that nobody reads is reported as often as it is written. -/
theorem nodup_unusedFields_iff {fields : List Member} {keys : List String}
    (supplied : component.suppliedFields? conventions = some keys) :
    ((component.unusedFields conventions fields keys).map Diagnostic.finding).Nodup ↔
      (keys.filter fun key => key ∉ fields.map Member.name).Nodup := by
  obtain ⟨report, named, reported⟩ := exists_unusedFields_eq fields supplied
  rw [reported]
  constructor
  · intro distinct
    -- what is said of a key depends on the key alone
    rw [List.map_map] at distinct
    exact distinct.of_map
  · intro distinct
    apply nodup_map_finding
    rw [List.map_map, Function.comp_def]
    simp only [named]
    exact distinct.map (Option.some_injective String)

theorem nodup_orphanHandlers :
    ((component.findings conventions .orphanHandlers).map Diagnostic.finding).Nodup := by
  rw [findings, orphanHandlers]
  split
  · exact List.nodup_nil
  · cases component.file? .handlers with
    | none => exact List.nodup_nil
    | some handlers => exact List.nodup_singleton _

end Component

/-! Odd names -/

/-- What is found of the names in one slot. -/
def Entry.oddNames (entry : Entry) (conventions : Conventions) (id : String) : List Diagnostic :=
  match conventions.naming.get? entry.file.slot.role with
  | none => []
  | some pattern =>
    (entry.symbols.filter fun symbol =>
      !(entry.file.slot.role = .store && symbol.name = conventions.projectionSymbol)
        && !pattern.accepts symbol.name).map fun symbol =>
      (Diagnostic.breach .namingViolation id
        s!"{entry.file.slot.label} export `{symbol.name}` does not match `{pattern.raw}`.")
        |>.withSymbol symbol.name |>.withSpan symbol.span

theorem Entry.Sound.nodup_oddNames {entry : Entry} (sound : entry.Sound) (conventions : Conventions)
    (id : String) : ((entry.oddNames conventions id).map Diagnostic.finding).Nodup := by
  apply nodup_map_finding
  rw [Entry.oddNames]
  split
  · exact List.nodup_nil
  · rw [List.map_map]
    change (List.map (some ∘ Symbol.name) _).Nodup
    rw [← List.map_map]
    exact (sound.names.sublist (List.filter_sublist.map Symbol.name)).map
      (Option.some_injective String)

/-- What is found of a name points into its file. -/
theorem Entry.Sound.span_oddNames {entry : Entry} (sound : entry.Sound) {conventions : Conventions}
    {id : String} {d : Diagnostic} (found : d ∈ entry.oddNames conventions id) :
    d.span.map Span.file = some entry.file.path := by
  rw [Entry.oddNames] at found
  split at found
  · cases found
  · obtain ⟨symbol, odd, rfl⟩ := List.mem_map.mp found
    exact congrArg some (sound.owned symbol (List.mem_of_mem_filter odd)).2.2

namespace Component

variable [ScriptParser] {component : Component} {conventions : Conventions}

/-- Names in one slot differ, and the files of two slots do. -/
theorem nodup_naming (aligned : component.Aligned)
    (sound : ∀ entry ∈ component.entries, entry.Sound)
    (placed : ∀ a ∈ component.entries, ∀ b ∈ component.entries, a.file.path = b.file.path →
      a.file.slot = b.file.slot) :
    ((component.findings conventions .namingViolation).map Diagnostic.finding).Nodup := by
  have gathered : component.findings conventions .namingViolation =
      component.entries.flatMap fun entry => entry.oddNames conventions component.id := by
    rw [findings, naming, aligned.symbolsByRole_pairs, List.flatMap_map]
    rfl
  rw [gathered, List.map_flatMap, List.nodup_flatMap]
  constructor
  · intro entry stored
    exact (sound entry stored).nodup_oddNames conventions component.id
  · refine aligned.entries_pairwise.imp_of_mem ?_
    intro a b here there before finding inA inB
    obtain ⟨d, odd, rfl⟩ := List.mem_map.mp inA
    obtain ⟨d', odd', same⟩ := List.mem_map.mp inB
    -- a finding in both blocks would lie in one file
    have span : d'.span = d.span := congrArg (fun finding => finding.2.2.1) same
    have path : some a.file.path = some b.file.path := by
      rw [← (sound a here).span_oddNames odd, ← (sound b there).span_oddNames odd', span]
    have slot := placed a here b there (Option.some.inj path)
    rw [slot, Slot.before_irrefl] at before
    cases before

/-- Findings of different contracts differ in their codes. -/
theorem nodup_validate_iff :
    ((component.validate conventions).map Diagnostic.finding).Nodup ↔
      ∀ contract ∈ Contract.ruled,
        ((component.findings conventions contract).map Diagnostic.finding).Nodup := by
  have blocks : (component.validate conventions).map Diagnostic.finding =
      Contract.ruled.flatMap fun contract =>
        (component.findings conventions contract).map Diagnostic.finding := by
    rw [validate_eq_flatMap, List.map_flatMap]
    simp only [List.map_map, Function.comp_def, Diagnostic.finding_escalate]
  -- a finding begins with its code, so those of two contracts never agree
  have apart : Contract.ruled.Pairwise (Function.onFun List.Disjoint fun contract =>
      (component.findings conventions contract).map Diagnostic.finding) := by
    have distinct : Contract.ruled.Nodup := by decide
    refine List.Pairwise.imp ?_ distinct
    intro a b differ finding inA inB
    obtain ⟨d, found, rfl⟩ := List.mem_map.mp inA
    obtain ⟨d', found', same⟩ := List.mem_map.mp inB
    have code : d'.code = d.code := congrArg Prod.fst same
    rw [code_of_mem_findings found, code_of_mem_findings found'] at code
    exact differ (Contract.code_injective code).symm
  rw [blocks, List.nodup_flatMap]
  exact ⟨fun both => both.1, fun each => ⟨each, apart⟩⟩

end Component

/-- The path of a file decides its slot. -/
theorem Index.slot_of_mem {conventions : Conventions} {sources : List Source} {index : Index}
    (indexed : Index.ofSources conventions sources = .ok index) {component : Component}
    (member : component ∈ index.components) {entry : Entry} (stored : entry ∈ component.entries) :
    entry.file.slot = (classify conventions entry.file.path).slot := by
  obtain ⟨source, -, rfl⟩ := Index.exists_source indexed member stored
  obtain ⟨failed, same⟩ := Entry.ofFile_file (SourceFile.ofSource conventions source)
  rw [same]
  rfl

/-- The rules repeat a finding exactly if a key of the projection that the view does not read is
written twice. -/
theorem validate_distinct_iff [ScriptParser] {built conventions : Conventions}
    {sources : List Source} {index : Index}
    (indexed : Index.ofSources built sources = .ok index) {component : Component}
    (member : component ∈ index.components) :
    ((component.validate conventions).map Diagnostic.finding).Nodup ↔
      ∀ store view keys, component.Opens .store store → component.Opens .view view →
        store.Supplies conventions.projectionSymbol keys →
        (keys.filter fun key => key ∉
          (membersOf conventions.viewRoot view.file.text.toList).map Member.name).Nodup := by
  have aligned := (Index.holds_of_mem indexed member).aligned
  have sound := Index.sound_of_mem indexed member
  rw [Component.nodup_validate_iff]
  constructor
  · intro each store view keys stored viewed supplied
    have told := (Component.suppliedFields?_eq_some_iff (stored.entry?_eq aligned)
      (sound store stored.stored).names).mpr supplied
    have unused := each .unusedViewField (by decide)
    rw [Component.findings, stored.readable?_eq aligned, viewed.readable?_eq aligned,
      told] at unused
    exact (Component.nodup_unusedFields_iff told).mp unused
  · intro unread contract ruled
    -- every other rule goes over names that were made distinct
    simp only [Contract.ruled, List.mem_cons, List.not_mem_nil, or_false] at ruled
    rcases ruled with rfl | rfl | rfl | rfl | rfl
    · exact Component.nodup_storeCalls
    · exact Component.nodup_missingFields
    · rw [Component.findings]
      split
      next storeFile viewFile keys stored viewed supplied =>
        obtain ⟨store, opened, -⟩ := aligned.exists_opens stored
        obtain ⟨view, viewOpened, rfl⟩ := aligned.exists_opens viewed
        have told := (Component.suppliedFields?_eq_some_iff (opened.entry?_eq aligned)
          (sound store opened.stored).names).mp supplied
        exact (Component.nodup_unusedFields_iff supplied).mpr
          (unread store view keys opened viewOpened told)
      · exact List.nodup_nil
    · exact Component.nodup_orphanHandlers
    · apply Component.nodup_naming aligned sound
      intro a here b there path
      rw [Index.slot_of_mem indexed member here, Index.slot_of_mem indexed member there, path]

/-- A projection that supplies a field twice, and a view that reads it. -/
def Source.repeatedAndRead : List Source :=
  [⟨"a.store.ts", "export const viewData = \x7b x: 1, x: 2 \x7d"⟩, ⟨"a.view.ts", "data.x"⟩]

theorem validate_distinct_iff_repeatedAndRead :
    ∃ index, Index.ofSources .anyNames Source.repeatedAndRead = .ok index ∧
      ∃ component ∈ index.components,
        ((component.validate .anyNames).map Diagnostic.finding).Nodup := by
  have indexed : Index.ofSources .anyNames Source.repeatedAndRead = .ok _ :=
    Index.ofSources_of_inOrder (by decide) (by decide +kernel)
  refine ⟨_, indexed, ?_⟩
  have read : ∃ component ∈ (Index.ofOrdered
        (Source.repeatedAndRead.map (SourceFile.ofSource .anyNames))).components,
      (∀ view ∈ component.entries, view.file.slot = ⟨.view, none⟩ →
        membersOf "data" view.file.text.toList = [⟨"x", 1⟩]) ∧
      ∀ store ∈ component.entries, ∀ symbol ∈ store.symbols,
        symbol.source.bind (projectionKeys? symbol.kind) = some ["x", "x"] := by
    decide +kernel
  obtain ⟨component, member, reads, supplies⟩ := read
  refine ⟨component, member, (validate_distinct_iff indexed member).mpr ?_⟩
  intro store view keys stored viewed supplied
  have fields : membersOf Conventions.anyNames.viewRoot view.file.text.toList = [⟨"x", 1⟩] :=
    reads view viewed.stored viewed.slot
  rw [fields]
  cases supplied with
  | nothing => exact List.nodup_nil
  | keys exported _ given literal =>
    have both := supplies store stored.stored _ exported
    rw [given, Option.bind_some, literal] at both
    cases both
    decide

/-- A projection that supplies a field twice, and a view that reads nothing. -/
def Source.repeatedKey : List Source :=
  [⟨"a.store.ts", "export const viewData = \x7b x: 1, x: 2 \x7d"⟩, ⟨"a.view.ts", ""⟩]

/-- The same finding is reported twice. -/
theorem validate_repeats_repeatedKey :
    ∃ conventions index, Settings.anyNames.compile = .ok conventions ∧
      Index.ofSources conventions Source.repeatedKey = .ok index ∧
      ∃ component ∈ index.components,
        ¬((component.validate conventions).map Diagnostic.finding).Nodup := by
  have indexed : Index.ofSources .anyNames Source.repeatedKey = .ok _ :=
    Index.ofSources_of_inOrder (by decide) (by decide +kernel)
  refine ⟨_, _, Settings.compile_anyNames, indexed, ?_⟩
  decide +kernel

end Concord
