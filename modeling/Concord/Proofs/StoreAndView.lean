import Concord.Proofs.HandlerRules
import Concord.Proofs.RuleOrder

/-!
What is reported of a store, its handlers and its view. The names that are reported are two
differences: what the handlers read less what the store defines, and, both ways, the fields that the
view reads and those that the projection supplies. Each difference is listed in the order of its
first side, and nothing is said where a file is missing or cannot be read, or where the projection
is not an object literal.
-/
namespace Concord

open Concord.Access Concord.Export

/-- The entry of a role that has no variant, if it could be read. -/
structure Component.Opens (component : Component) (role : Role) (entry : Entry) : Prop where
  stored : entry ∈ component.entries
  slot : entry.file.slot = ⟨role, none⟩
  read : entry.file.parseFailed = false

/-- The store supplies these fields to its view: the keys of the object that the projection gives,
or none if no projection is exported. A projection of another shape supplies no list at all. -/
inductive Entry.Supplies [ScriptParser] (store : Entry) (projection : String) :
    List String → Prop
  | nothing (missing : ∀ symbol ∈ store.symbols, symbol.name ≠ projection) :
      Supplies store projection []
  | keys {symbol : Symbol} {source : String} {keys : List String}
      (exported : symbol ∈ store.symbols) (named : symbol.name = projection)
      (given : symbol.source = some source)
      (literal : projectionKeys? symbol.kind source = some keys) :
      Supplies store projection keys

@[simp] theorem Diagnostic.symbol_escalate (d : Diagnostic) (strict : Bool) :
    (d.escalate strict).symbol = d.symbol := by
  cases strict <;> rfl

@[simp] theorem Diagnostic.symbol_withHintIf (d : Diagnostic) (hinted : Prop) [Decidable hinted]
    (hint : String) : (if hinted then d.withHint hint else d).symbol = d.symbol := by
  split <;> rfl

namespace Component

variable {component : Component} {conventions : Conventions}

/-! Entries that can be read -/

theorem Opens.entry?_eq {role : Role} {entry : Entry} (opened : component.Opens role entry)
    (aligned : component.Aligned) : component.entry? ⟨role, none⟩ = some entry := by
  rw [← opened.slot]
  exact aligned.mem_entries_iff.mp opened.stored

theorem Opens.readable?_eq {role : Role} {entry : Entry} (opened : component.Opens role entry)
    (aligned : component.Aligned) : component.readable? role = some entry.file :=
  aligned.readable?_eq opened.stored opened.slot opened.read

theorem Aligned.exists_opens (aligned : component.Aligned) {role : Role} {file : SourceFile}
    (found : component.readable? role = some file) :
    ∃ entry, component.Opens role entry ∧ entry.file = file := by
  obtain ⟨held, read⟩ := Option.filter_eq_some_iff.mp found
  obtain ⟨entry, stored, rfl⟩ := aligned.exists_of_get? held
  exact ⟨entry, ⟨stored, aligned.own _ _ held, by simpa using read⟩, rfl⟩

theorem Aligned.readable?_eq_none (aligned : component.Aligned) {role : Role}
    (closed : ∀ entry, ¬component.Opens role entry) : component.readable? role = none := by
  cases found : component.readable? role with
  | none => rfl
  | some file =>
    obtain ⟨entry, opened, -⟩ := aligned.exists_opens found
    exact absurd opened (closed entry)

/-- The fields that are supplied, told from the symbols of the store. -/
theorem suppliedFields?_eq_some_iff [ScriptParser] {store : Entry}
    (found : component.entry? ⟨.store, none⟩ = some store)
    (names : (store.symbols.map Symbol.name).Nodup) {keys : List String} :
    component.suppliedFields? conventions = some keys ↔
      store.Supplies conventions.projectionSymbol keys := by
  rw [suppliedFields?, symbol?, symbols_eq found]
  -- names of symbols are distinct, so the symbol that is looked up is the one of that name
  constructor
  · intro supplied
    split at supplied
    next missing =>
      cases supplied
      exact .nothing (by simpa using missing)
    next symbol projected =>
      obtain ⟨exported, named⟩ := (find?_eq_some_iff_of_nodup names).mp projected
      obtain ⟨source, given, literal⟩ := Option.bind_eq_some_iff.mp supplied
      exact .keys exported named given literal
  · intro supplies
    cases supplies with
    | nothing missing =>
      have none : store.symbols.find? (fun symbol =>
          symbol.name = conventions.projectionSymbol) = none := by
        simpa using missing
      rw [none]
    | keys exported named given literal =>
      rw [(find?_eq_some_iff_of_nodup names).mpr ⟨exported, named⟩]
      simp only [given, Option.bind_some, literal]

/-! Names that are found -/

theorem map_symbol_storeCalls [ScriptParser] {store handlers : SourceFile}
    (stored : component.readable? .store = some store)
    (handled : component.readable? .handlers = some handlers) :
    (component.storeCalls conventions).map Diagnostic.symbol =
      ((membersOf conventions.storeHandle handlers.text.toList).filter fun read =>
        !component.resolves read.name).map fun read => some read.name := by
  rw [storeCalls, stored, handled]
  simp only [List.map_map, Function.comp_def, Diagnostic.symbol_withHintIf]
  rfl

theorem map_symbol_missingFields (store view : SourceFile) (fields : List Member)
    (keys : List String) :
    (component.missingFields conventions store view fields keys).map Diagnostic.symbol =
      ((fields.map Member.name).filter fun name => name ∉ keys).map some := by
  rw [missingFields, List.filter_map, List.map_map, List.map_map]
  simp only [Function.comp_def, Diagnostic.symbol_withHintIf, List.contains_eq_mem,
    decide_not]
  rfl

/-- Every key that is not read is reported, each by its own diagnostic. -/
theorem exists_unusedFields_eq [ScriptParser] (fields : List Member) {keys : List String}
    (supplied : component.suppliedFields? conventions = some keys) :
    ∃ report : String → Diagnostic, (∀ key, (report key).symbol = some key) ∧
      component.unusedFields conventions fields keys =
        (keys.filter fun key => key ∉ fields.map Member.name).map report := by
  rw [suppliedFields?] at supplied
  split at supplied
  next missing =>
    -- without a projection there are no keys
    cases supplied
    refine ⟨fun key => (Diagnostic.breach .unusedViewField component.id "").withSymbol key,
      fun key => rfl, ?_⟩
    rw [unusedFields, missing]
    rfl
  next projection projected =>
    have unread (key : String) : (!fields.any fun field => field.name = key) =
        decide (key ∉ fields.map Member.name) := by
      rw [Bool.eq_iff_iff]
      simp
    rw [unusedFields, projected]
    simp only [unread]
    exact ⟨_, fun key => rfl, rfl⟩

/-! Names that are reported -/

section

variable [ScriptParser]

theorem reportedNames_eq {contract : Contract} (ruled : contract ∈ Contract.ruled) :
    component.reportedNames conventions contract =
      (component.findings conventions contract).map Diagnostic.symbol := by
  rw [reportedNames, reportsOf_eq ruled, List.map_map, Function.comp_def]
  simp only [Diagnostic.symbol_escalate]

theorem reportedNames_eq_nil {contract : Contract} (ruled : contract ∈ Contract.ruled)
    (none : component.findings conventions contract = []) :
    component.reportedNames conventions contract = [] := by
  rw [reportedNames_eq ruled, none, List.map_nil]

/-- Nothing is reported of a store call unless the store and the handlers can be read. -/
theorem reportedNames_unknownStoreMethod_eq_nil (aligned : component.Aligned)
    (closed : (∀ store, ¬component.Opens .store store) ∨
      ∀ handlers, ¬component.Opens .handlers handlers) :
    component.reportedNames conventions .unknownStoreMethod = [] := by
  apply reportedNames_eq_nil (by decide)
  rw [findings, storeCalls]
  rcases closed with noStore | noHandlers
  · rw [aligned.readable?_eq_none noStore]
  · rw [aligned.readable?_eq_none noHandlers]
    cases component.readable? .store <;> rfl

variable (aligned : component.Aligned)
  (names : ∀ entry ∈ component.entries, (entry.symbols.map Symbol.name).Nodup)

include aligned names

theorem reportedNames_unknownStoreMethod {store handlers : Entry}
    (stored : component.Opens .store store) (handled : component.Opens .handlers handlers) :
    component.reportedNames conventions .unknownStoreMethod =
      ((membersOf conventions.storeHandle handlers.file.text.toList).filter fun read =>
        ¬store.Defines read.name).map fun read => some read.name := by
  have defined (read : Member) : (!component.resolves read.name) =
      decide (¬store.Defines read.name) := by
    rw [Bool.eq_iff_iff, Bool.not_eq_true', ← Bool.not_eq_true,
      resolves_iff (stored.entry?_eq aligned) (names store stored.stored), decide_eq_true_eq]
  rw [reportedNames_eq (by decide), findings,
    map_symbol_storeCalls (stored.readable?_eq aligned) (handled.readable?_eq aligned)]
  simp only [defined]

/-- Nothing is reported of a view field unless the store and the view can be read and the fields
that are supplied are known. -/
theorem reportedNames_viewFields_eq_nil
    (closed : ∀ store view keys, component.Opens .store store → component.Opens .view view →
      ¬store.Supplies conventions.projectionSymbol keys) :
    component.reportedNames conventions .missingViewField = [] ∧
      component.reportedNames conventions .unusedViewField = [] := by
  -- the rule looks up just what the hypothesis excludes
  have unmatched (store view : SourceFile) (keys : List String)
      (stored : component.readable? .store = some store)
      (viewed : component.readable? .view = some view)
      (supplied : component.suppliedFields? conventions = some keys) : False := by
    obtain ⟨storeEntry, opened, -⟩ := aligned.exists_opens stored
    obtain ⟨viewEntry, viewOpened, -⟩ := aligned.exists_opens viewed
    refine closed storeEntry viewEntry keys opened viewOpened ?_
    exact (suppliedFields?_eq_some_iff (opened.entry?_eq aligned)
      (names storeEntry opened.stored)).mp supplied
  constructor
  · apply reportedNames_eq_nil (by decide)
    rw [findings]
    split
    next stored viewed supplied => exact (unmatched _ _ _ stored viewed supplied).elim
    · rfl
  · apply reportedNames_eq_nil (by decide)
    rw [findings]
    split
    next stored viewed supplied => exact (unmatched _ _ _ stored viewed supplied).elim
    · rfl

/-- What is reported of the fields of a view are the two differences of what it reads and what it is
supplied with. -/
theorem reportedNames_viewFields {store view : Entry} {keys : List String}
    (stored : component.Opens .store store) (viewed : component.Opens .view view)
    (supplied : store.Supplies conventions.projectionSymbol keys) :
    component.reportedNames conventions .missingViewField =
        (((membersOf conventions.viewRoot view.file.text.toList).map Member.name).filter
          fun field => field ∉ keys).map some ∧
      component.reportedNames conventions .unusedViewField =
        (keys.filter fun key => key ∉
          (membersOf conventions.viewRoot view.file.text.toList).map Member.name).map some := by
  -- with the three given, both rules are the branch that compares fields and keys
  have told := (suppliedFields?_eq_some_iff (stored.entry?_eq aligned)
    (names store stored.stored)).mpr supplied
  constructor
  · rw [reportedNames_eq (by decide), findings, stored.readable?_eq aligned,
      viewed.readable?_eq aligned, told]
    exact map_symbol_missingFields _ _ _ _
  · obtain ⟨report, named, reported⟩ := exists_unusedFields_eq
      (membersOf conventions.viewRoot view.file.text.toList) told
    rw [reportedNames_eq (by decide), findings, stored.readable?_eq aligned,
      viewed.readable?_eq aligned, told]
    simp only [reported, List.map_map, Function.comp_def, named]

end

end Component

/-- Both differences of two lists are empty exactly if they have the same elements. -/
theorem differences_eq_nil_iff {α : Type} [DecidableEq α] {xs ys : List α} :
    (xs.filter fun x => x ∉ ys) = [] ∧ (ys.filter fun y => y ∉ xs) = [] ↔
      ∀ x, x ∈ xs ↔ x ∈ ys := by
  simp only [List.filter_eq_nil_iff, decide_eq_true_eq, not_not]
  exact ⟨fun ⟨left, right⟩ x => ⟨left x, right x⟩,
    fun same => ⟨fun x => (same x).mp, fun x => (same x).mpr⟩⟩

/-- Every entry of a component of an index is that of a source. -/
theorem Index.exists_source {conventions : Conventions} {sources : List Source} {index : Index}
    (indexed : Index.ofSources conventions sources = .ok index) {component : Component}
    (member : component ∈ index.components) {entry : Entry} (stored : entry ∈ component.entries) :
    ∃ source ∈ sources, Entry.ofFile (SourceFile.ofSource conventions source) = entry := by
  obtain ⟨file, first, rfl⟩ := (Index.holds_of_mem indexed member).exists_file stored
  obtain ⟨source, given, rfl⟩ :=
    Source.mem_files.mp (List.mem_of_mem_filter (mem_of_mem_firsts first))
  exact ⟨source, given, rfl⟩

/-- What is stored in a component of an index is what was read from its file. -/
theorem Index.sound_of_mem {conventions : Conventions} {sources : List Source} {index : Index}
    (indexed : Index.ofSources conventions sources = .ok index) {component : Component}
    (member : component ∈ index.components) : ∀ entry ∈ component.entries, entry.Sound := by
  intro entry stored
  obtain ⟨source, -, rfl⟩ := Index.exists_source indexed member stored
  exact Entry.ofFile_sound rfl

/-- The rules about store calls and view fields report the differences and nothing else, and the
codes of a component come in the order of the contracts. The conventions need not be those under
which the index was built. -/
theorem validate_reports_differences [ScriptParser] {built conventions : Conventions}
    {sources : List Source} {index : Index} (indexed : Index.ofSources built sources = .ok index)
    {component : Component} (member : component ∈ index.components) :
    (∀ store handlers, component.Opens .store store → component.Opens .handlers handlers →
      component.reportedNames conventions .unknownStoreMethod =
        ((membersOf conventions.storeHandle handlers.file.text.toList).filter fun read =>
          ¬store.Defines read.name).map fun read => some read.name) ∧
    ((∀ store, ¬component.Opens .store store) ∨ (∀ handlers, ¬component.Opens .handlers handlers) →
      component.reportedNames conventions .unknownStoreMethod = []) ∧
    (∀ store view keys, component.Opens .store store → component.Opens .view view →
      store.Supplies conventions.projectionSymbol keys →
      let fields := (membersOf conventions.viewRoot view.file.text.toList).map Member.name
      component.reportedNames conventions .missingViewField =
          (fields.filter fun field => field ∉ keys).map some ∧
        component.reportedNames conventions .unusedViewField =
          (keys.filter fun key => key ∉ fields).map some ∧
        (component.reportedNames conventions .missingViewField = [] ∧
          component.reportedNames conventions .unusedViewField = [] ↔
            ∀ name, name ∈ fields ↔ name ∈ keys)) ∧
    ((∀ store view keys, component.Opens .store store → component.Opens .view view →
        ¬store.Supplies conventions.projectionSymbol keys) →
      component.reportedNames conventions .missingViewField = [] ∧
        component.reportedNames conventions .unusedViewField = []) ∧
    (component.validate conventions).map Diagnostic.code =
      Contract.ruled.flatMap fun contract =>
        List.replicate (component.reportCount conventions contract) contract.code := by
  have aligned := (Index.holds_of_mem indexed member).aligned
  have names : ∀ entry ∈ component.entries, (entry.symbols.map Symbol.name).Nodup :=
    fun entry stored => (Index.sound_of_mem indexed member entry stored).names
  refine ⟨?_, ?_, ?_, ?_, Component.map_code_validate⟩
  · intro store handlers stored handled
    exact Component.reportedNames_unknownStoreMethod aligned names stored handled
  · exact Component.reportedNames_unknownStoreMethod_eq_nil aligned
  · intro store view keys stored viewed supplied fields
    obtain ⟨missing, unused⟩ :=
      Component.reportedNames_viewFields aligned names stored viewed supplied
    refine ⟨missing, unused, ?_⟩
    -- neither side has anything left exactly if both have the same names
    rw [missing, unused, List.map_eq_nil_iff, List.map_eq_nil_iff]
    exact differences_eq_nil_iff
  · exact Component.reportedNames_viewFields_eq_nil aligned names

/-- The standard suffixes, and any names. -/
def Settings.anyNames : Settings :=
  { namingConventions := {} }

/-- The conventions of these settings. -/
def Conventions.anyNames : Conventions :=
  { suffixes :=
      [(.store, ⟨".store", [.literal "store".toList]⟩),
        (.handlers, ⟨".handlers", [.literal "handlers".toList]⟩),
        (.view, ⟨".view", [.literal "view".toList]⟩),
        (.impl, ⟨".impl", [.literal "impl".toList]⟩),
        (.impl, ⟨".*.impl", [.variant, .literal "impl".toList]⟩)]
    naming := {}, treatWarningsAsErrors := false, flagStrayFiles := false
    extensions := ["ts", "tsx", "js", "jsx", "mjs", "cjs"]
    storeHandle := "store", viewRoot := "data", projectionSymbol := "viewData" }

theorem Settings.compile_anyNames [PatternEngine] : Settings.anyNames.compile = .ok .anyNames :=
  rfl

/-- Handlers that read what the store does not define, and a view that reads none of the fields of
the projection but another one. -/
def Source.uneven : List Source :=
  [⟨"a.handlers.ts", "store.x()"⟩,
    ⟨"a.store.ts", "export const viewData = \x7b p, q \x7d"⟩,
    ⟨"a.view.ts", "data.r"⟩]

theorem validate_reports_differences_uneven :
    ∃ index, Index.ofSources .anyNames Source.uneven = .ok index ∧
      ∃ component ∈ index.components,
        component.reportedNames .anyNames .unknownStoreMethod = [some "x"] ∧
        component.reportedNames .anyNames .missingViewField = [some "r"] ∧
        component.reportedNames .anyNames .unusedViewField = [some "p", some "q"] := by
  have indexed : Index.ofSources .anyNames Source.uneven = .ok _ :=
    Index.ofSources_of_inOrder (by decide) (by decide +kernel)
  refine ⟨_, indexed, ?_⟩
  -- the three entries of the component, and what is read and exported in them
  have read : ∃ component ∈ (Index.ofOrdered
        (Source.uneven.map (SourceFile.ofSource .anyNames))).components,
      (∃ handlers ∈ component.entries, handlers.file.slot = ⟨.handlers, none⟩ ∧
        handlers.file.parseFailed = false ∧
        membersOf "store" handlers.file.text.toList = [⟨"x", 1⟩]) ∧
      (∃ view ∈ component.entries, view.file.slot = ⟨.view, none⟩ ∧
        view.file.parseFailed = false ∧ membersOf "data" view.file.text.toList = [⟨"r", 1⟩]) ∧
      ∃ store ∈ component.entries, store.file.slot = ⟨.store, none⟩ ∧
        store.file.parseFailed = false ∧ ¬store.Defines "x" ∧
        ∃ symbol ∈ store.symbols, symbol.name = "viewData" ∧
          symbol.source.bind (projectionKeys? symbol.kind) = some ["p", "q"] := by
    decide +kernel
  obtain ⟨component, member, ⟨handlers, held, place, fine, called⟩,
    ⟨view, viewHeld, viewPlace, viewFine, fields⟩, store, storeHeld, storePlace, storeFine,
    undefined, symbol, exported, named, literal⟩ := read
  have handled : component.Opens .handlers handlers := ⟨held, place, fine⟩
  have viewed : component.Opens .view view := ⟨viewHeld, viewPlace, viewFine⟩
  have stored : component.Opens .store store := ⟨storeHeld, storePlace, storeFine⟩
  obtain ⟨source, given, keys⟩ := Option.bind_eq_some_iff.mp literal
  obtain ⟨calls, -, both, -⟩ :=
    @validate_reports_differences _ .anyNames .anyNames _ _ indexed _ member
  obtain ⟨missing, unused, -⟩ := both store view _ stored viewed (.keys exported named given keys)
  refine ⟨component, member, ?_, ?_, ?_⟩
  · rw [calls store handlers stored handled, Conventions.anyNames, called]
    simp [undefined]
  · rw [missing, Conventions.anyNames, fields]
    rfl
  · rw [unused, Conventions.anyNames, fields]
    rfl

end Concord
