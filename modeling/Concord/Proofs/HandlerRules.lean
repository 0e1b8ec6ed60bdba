import Concord.Proofs.RuleReports
import Concord.Proofs.SlotHolders

/-!
How handlers are checked. The rules look handlers and stores up in the slots that have no variant,
and there each slot has one entry. So handlers without a variant are reported once if there is no
store at all, and whatever they read from a store without a variant is defined by it or reported.
Handlers with a variant are not looked up, and neither is a store with one.
-/
namespace Concord

open Concord.Access Concord.Export

/-- Where keys are distinct, a search by key finds the one element that has it. -/
theorem find?_eq_some_iff_of_nodup {α κ : Type} [DecidableEq κ] {key : α → κ} {xs : List α}
    (distinct : (xs.map key).Nodup) {k : κ} {x : α} :
    xs.find? (fun y => key y = k) = some x ↔ x ∈ xs ∧ key x = k := by
  constructor
  · intro found
    exact ⟨List.mem_of_find?_eq_some found, by simpa using List.find?_some found⟩
  · rintro ⟨member, rfl⟩
    cases found : xs.find? fun y => key y = key x with
    | none =>
      have missing := List.find?_eq_none.mp found x member
      simp at missing
    | some y =>
      have same : key y = key x := by simpa using List.find?_some found
      rw [List.inj_on_of_nodup_map distinct (List.mem_of_find?_eq_some found) member same]

/-- The entry defines a symbol of this name itself, and does not only pass it on. -/
def Entry.Defines (entry : Entry) (name : String) : Prop :=
  ∃ symbol ∈ entry.symbols, symbol.name = name ∧
    symbol.kind ∈ [Kind.function, .value, .destructuredTyped]

instance (entry : Entry) (name : String) : Decidable (entry.Defines name) :=
  inferInstanceAs (Decidable (∃ symbol ∈ entry.symbols, _))

namespace Component

variable {component : Component} {conventions : Conventions}

theorem Aligned.file?_eq (aligned : component.Aligned) {entry : Entry} {role : Role}
    (stored : entry ∈ component.entries) (slot : entry.file.slot = ⟨role, none⟩) :
    component.file? role = some entry.file := by
  have found := aligned.mem_entries_iff.mp stored
  rw [slot] at found
  obtain ⟨file, kept, rfl⟩ := Option.map_eq_some_iff.mp found
  exact kept

theorem Aligned.readable?_eq (aligned : component.Aligned) {entry : Entry} {role : Role}
    (stored : entry ∈ component.entries) (slot : entry.file.slot = ⟨role, none⟩)
    (read : entry.file.parseFailed = false) : component.readable? role = some entry.file := by
  rw [readable?, aligned.file?_eq stored slot, Option.filter_some, read]
  rfl

/-- A name resolves if the store defines it. -/
theorem resolves_iff {store : Entry} (found : component.entry? ⟨.store, none⟩ = some store)
    (names : (store.symbols.map Symbol.name).Nodup) (name : String) :
    component.resolves name = true ↔ store.Defines name := by
  have defined (kind : Kind) : kind ∈ [Kind.function, .value, .destructuredTyped] ↔
      kind ≠ .reExport := by
    cases kind <;> decide
  rw [resolves, symbol?, symbols_eq found, Option.any_eq_true]
  constructor
  · rintro ⟨symbol, first, kind⟩
    obtain ⟨exported, same⟩ := (find?_eq_some_iff_of_nodup names).mp first
    exact ⟨symbol, exported, same, (defined _).mpr (by simpa using kind)⟩
  · rintro ⟨symbol, exported, same, kind⟩
    have first := (find?_eq_some_iff_of_nodup names).mpr ⟨exported, same⟩
    exact ⟨symbol, first, by simpa using (defined _).mp kind⟩

theorem Aligned.hasRole_eq_false (aligned : component.Aligned) {role : Role}
    (none : ∀ entry ∈ component.entries, entry.file.slot.role ≠ role) :
    component.hasRole role = false := by
  rw [hasRole, ← aligned.map_slot_entries, List.any_map, List.any_eq_false]
  intro entry stored
  simpa using none entry stored

section

variable [ScriptParser] {handlers : Entry} (aligned : component.Aligned)
  (stored : handlers ∈ component.entries) (slot : handlers.file.slot = ⟨.handlers, none⟩)

include aligned stored slot

/-- Handlers without a variant and without a store are reported once. -/
theorem reportCount_of_no_store
    (none : ∀ entry ∈ component.entries, entry.file.slot.role ≠ .store) :
    component.reportCount conventions .orphanHandlers = 1 := by
  rw [reportCount_orphanHandlers, aligned.hasRole_eq_false none, aligned.file?_eq stored slot]
  rfl

/-- What handlers without a variant read from a store without one is reported exactly if the store
does not define it. -/
theorem exists_unknownStoreMethod_iff (read : handlers.file.parseFailed = false) {store : Entry}
    (paired : store ∈ component.entries) (place : store.file.slot = ⟨.store, none⟩)
    (fine : store.file.parseFailed = false) (names : (store.symbols.map Symbol.name).Nodup)
    {member : Member} (called : member ∈ membersOf conventions.storeHandle
      handlers.file.text.toList) :
    (∃ d ∈ component.validate conventions, d.Reports .unknownStoreMethod component.id
        (some member.name) (handlers.file.spanAt member.line)) ↔
      ¬store.Defines member.name := by
  have found := aligned.mem_entries_iff.mp paired
  rw [place] at found
  rw [exists_report_iff, ← resolves_iff found names, Bool.not_eq_true]
  constructor
  · intro breach
    -- the name is all that is left of the member in the breach
    generalize named : some member.name = symbol at breach
    generalize handlers.file.spanAt member.line = span at breach
    cases breach with
    | storeCall _ _ _ unresolved =>
      rw [Option.some.inj named]
      exact unresolved
  · intro unresolved
    -- both files are found in their slots and can be read, so the rule looks at them
    exact .storeCall (aligned.readable?_eq paired place fine)
      (aligned.readable?_eq stored slot read) called unresolved

end

end Component

/-! Components of an index -/

theorem Index.named_of_ofSources {conventions : Conventions} {sources : List Source} {index : Index}
    (indexed : Index.ofSources conventions sources = .ok index) :
    ∀ source ∈ sources, source.isBlank = false := by
  rw [Index.ofSources] at indexed
  split at indexed
  · cases indexed
  next none => simpa using none

/-- The components of an index, and the files they were gathered from. -/
theorem Index.holds_of_mem {conventions : Conventions} {sources : List Source} {index : Index}
    (indexed : Index.ofSources conventions sources = .ok index) {component : Component}
    (member : component ∈ index.components) :
    component.Holds ((Source.files conventions sources).filter
      (SourceFile.belongsTo component.id)) := by
  rw [ofSources_of_no_blank conventions (named_of_ofSources indexed), ofFiles_eq_gather] at indexed
  cases indexed
  exact Source.holds_of_mem_gather member

/-- Handlers without a variant are checked: without a store they are reported once, and with a store
that has no variant either, a member they read is reported exactly if the store does not define
it. -/
theorem validate_checks_handlers [ScriptParser] {conventions : Conventions}
    {sources : List Source} {index : Index}
    (indexed : Index.ofSources conventions sources = .ok index) {component : Component}
    (member : component ∈ index.components) {handlers : Entry}
    (stored : handlers ∈ component.entries) (slot : handlers.file.slot = ⟨.handlers, none⟩)
    (read : handlers.file.parseFailed = false) :
    ((∀ entry ∈ component.entries, entry.file.slot.role ≠ .store) →
      component.reportCount conventions .orphanHandlers = 1) ∧
    ∀ store ∈ component.entries, store.file.slot = ⟨.store, none⟩ →
      store.file.parseFailed = false →
      ∀ called ∈ membersOf conventions.storeHandle handlers.file.text.toList,
        (∃ d ∈ component.validate conventions, d.Reports .unknownStoreMethod component.id
            (some called.name) (handlers.file.spanAt called.line)) ↔
          ¬store.Defines called.name := by
  have holds := Index.holds_of_mem indexed member
  constructor
  · intro none
    exact Component.reportCount_of_no_store holds.aligned stored slot none
  · intro store paired place fine called known
    -- what a store keeps of its exports has distinct names
    have names : (store.symbols.map Symbol.name).Nodup := by
      obtain ⟨file, first, rfl⟩ := holds.exists_file paired
      have given := List.mem_of_mem_filter (mem_of_mem_firsts first)
      exact (Entry.ofFile_sound (Source.parseFailed_of_mem_files given)).names
    exact Component.exists_unknownStoreMethod_iff holds.aligned stored slot read paired place fine
      names known

/-- Stores and handlers, each with and without a variant, and no patterns for names. -/
def Settings.variants : Settings :=
  { roleSuffixes :=
      { store := some [".store", ".*.store"], handlers := some [".handlers", ".*.handlers"] }
    namingConventions := {} }

/-- The conventions of these settings. -/
def Conventions.variants : Conventions :=
  { suffixes :=
      [(.store, ⟨".store", [.literal "store".toList]⟩),
        (.store, ⟨".*.store", [.variant, .literal "store".toList]⟩),
        (.handlers, ⟨".handlers", [.literal "handlers".toList]⟩),
        (.handlers, ⟨".*.handlers", [.variant, .literal "handlers".toList]⟩)]
    naming := {}, treatWarningsAsErrors := false, flagStrayFiles := false
    extensions := ["ts", "tsx", "js", "jsx", "mjs", "cjs"]
    storeHandle := "store", viewRoot := "data", projectionSymbol := "viewData" }

theorem Settings.compile_variants [PatternEngine] : Settings.variants.compile = .ok .variants :=
  rfl

/-- The index of sources that come in order. -/
def Index.variants (sources : List Source) : Index :=
  Index.ofOrdered (sources.map (SourceFile.ofSource .variants))

theorem Index.ofSources_variants {sources : List Source}
    (named : ∀ source ∈ sources, source.isBlank = false)
    (ordered : (sources.map (SourceFile.ofSource .variants)).Pairwise
      fun a b => Index.inOrder a b = true) :
    Index.ofSources .variants sources = .ok (Index.variants sources) :=
  Index.ofSources_of_inOrder named ordered

/-- A store that only passes on what its handlers read, and handlers without a store. -/
def Source.paired : List Source :=
  [⟨"a.handlers.ts", "store.y()"⟩, ⟨"a.store.ts", "export \x7b y \x7d"⟩, ⟨"b.handlers.ts", ""⟩]

theorem validate_checks_handlers_paired :
    ∃ index, Index.ofSources .variants Source.paired = .ok index ∧
      (∃ component ∈ index.components, component.id = "a" ∧
        ∃ d ∈ component.validate .variants,
          d.Reports .unknownStoreMethod "a" (some "y") ⟨"a.handlers.ts", 1⟩) ∧
      ∃ component ∈ index.components, component.id = "b" ∧
        component.reportCount .variants .orphanHandlers = 1 := by
  have indexed : Index.ofSources .variants Source.paired = .ok (Index.variants Source.paired) :=
    Index.ofSources_variants (by decide) (by decide +kernel)
  refine ⟨_, indexed, ?_, ?_⟩
  · -- the store exports the name, but only passes it on
    have reads : ∃ component ∈ (Index.variants Source.paired).components, component.id = "a" ∧
        ∃ handlers ∈ component.entries, handlers.file.slot = ⟨.handlers, none⟩ ∧
          handlers.file.parseFailed = false ∧ handlers.file.path = "a.handlers.ts" ∧
          (⟨"y", 1⟩ : Member) ∈ membersOf "store" handlers.file.text.toList ∧
          ∃ store ∈ component.entries, store.file.slot = ⟨.store, none⟩ ∧
            store.file.parseFailed = false ∧ ¬store.Defines "y" := by
      decide +kernel
    obtain ⟨component, member, id, handlers, stored, slot, read, path, called, store, paired, place,
      fine, passed⟩ := reads
    have checked := (validate_checks_handlers indexed member stored slot read).2
    have told := (checked store paired place fine _ called).mpr passed
    rw [SourceFile.spanAt, id, path] at told
    exact ⟨component, member, id, told⟩
  -- no store at all: the handlers are orphans
  · have alone : ∃ component ∈ (Index.variants Source.paired).components, component.id = "b" ∧
        (∀ entry ∈ component.entries, entry.file.slot.role ≠ .store) ∧
        ∃ handlers ∈ component.entries, handlers.file.slot = ⟨.handlers, none⟩ ∧
          handlers.file.parseFailed = false := by
      decide +kernel
    obtain ⟨component, member, id, none, handlers, stored, slot, read⟩ := alone
    exact ⟨component, member, id,
      (validate_checks_handlers indexed member stored slot read).1 none⟩

/-- Handlers with a variant and no store, and a store with a variant that does not define what its
handlers read. -/
def Source.mismatched : List Source :=
  [⟨"a.web.handlers.ts", ""⟩, ⟨"b.handlers.ts", "store.x()"⟩, ⟨"b.web.store.ts", ""⟩]

/-- Neither handlers with a variant nor a store with a variant are looked up, so nothing is said. -/
theorem variants_unreported :
    ∃ conventions index, Settings.variants.compile = .ok conventions ∧
      Index.ofSources conventions Source.mismatched = .ok index ∧
      (∃ component ∈ index.components,
        (∃ handlers ∈ component.entries, handlers.file.slot.role = .handlers ∧
          handlers.file.parseFailed = false) ∧
        (∀ entry ∈ component.entries, entry.file.slot.role ≠ .store) ∧
        component.reportCount conventions .orphanHandlers = 0) ∧
      ∃ component ∈ index.components, component.hasRole .store = true ∧
        (∀ entry ∈ component.entries, entry.file.parseFailed = false) ∧
        ∃ handlers ∈ component.entries, handlers.file.slot.role = .handlers ∧
          ∃ called ∈ membersOf conventions.storeHandle handlers.file.text.toList,
            (∀ store ∈ component.entries, store.file.slot.role = .store →
              ¬store.Defines called.name) ∧
            ∀ d ∈ component.validate conventions,
              d.code = Contract.unknownStoreMethod.code → d.symbol ≠ some called.name := by
  have indexed : Index.ofSources .variants Source.mismatched =
      .ok (Index.variants Source.mismatched) :=
    Index.ofSources_variants (by decide) (by decide +kernel)
  refine ⟨_, _, Settings.compile_variants, indexed, ?_, ?_⟩
  · decide +kernel
  · decide +kernel

end Concord
