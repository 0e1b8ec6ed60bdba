import Concord.Check.Rules

/-!
What the rules report. A breach is a contract that a component does not keep, with the place where
this shows and the name it is about; `Breach` says for every rule when there is one, without the
diagnostics. The rules report the breaches and nothing else.
-/
namespace Concord

open Concord.Access

theorem Contract.code_injective {a b : Contract} (same : a.code = b.code) : a = b := by
  have found : ofCode? a.code = ofCode? b.code := congrArg ofCode? same
  simpa using found

/-- A diagnostic reports one thing. -/
theorem Diagnostic.Reports.unique {d : Diagnostic} {contract contract' : Contract}
    {component component' : String} {symbol symbol' : Option String} {span span' : Span}
    (reports : d.Reports contract component symbol span)
    (reports' : d.Reports contract' component' symbol' span') :
    contract = contract' ∧ symbol = symbol' ∧ span = span' := by
  refine ⟨?_, ?_, ?_⟩
  · exact Contract.code_injective (reports.code.symm.trans reports'.code)
  · exact reports.symbol.symm.trans reports'.symbol
  · exact Option.some.inj (reports.span.symm.trans reports'.span)

theorem Diagnostic.Reports.withHintIf {d : Diagnostic} {contract : Contract} {component : String}
    {symbol : Option String} {span : Span} (reports : d.Reports contract component symbol span)
    (hinted : Prop) [Decidable hinted] (hint : String) :
    (if hinted then d.withHint hint else d).Reports contract component symbol span := by
  split
  · exact reports.withHint hint
  · exact reports

@[simp] theorem Diagnostic.code_escalate (d : Diagnostic) (strict : Bool) :
    (d.escalate strict).code = d.code := by
  cases strict <;> rfl

namespace Component

variable [ScriptParser]

/-- A contract that the component does not keep, the name it is about and where this shows. -/
inductive Breach (component : Component) (conventions : Conventions) :
    Contract → Option String → Span → Prop
  /-- The handlers read a member of the store that it does not define. -/
  | storeCall {store handlers : SourceFile} {member : Member}
      (stored : component.readable? .store = some store)
      (handled : component.readable? .handlers = some handlers)
      (read : member ∈ membersOf conventions.storeHandle handlers.text.toList)
      (unresolved : component.resolves member.name = false) :
      Breach component conventions .unknownStoreMethod (some member.name)
        (handlers.spanAt member.line)
  /-- The view reads a field that the projection does not supply. -/
  | missingField {store view : SourceFile} {keys : List String} {field : Member}
      (stored : component.readable? .store = some store)
      (viewed : component.readable? .view = some view)
      (supplied : component.suppliedFields? conventions = some keys)
      (read : field ∈ membersOf conventions.viewRoot view.text.toList)
      (missing : field.name ∉ keys) :
      Breach component conventions .missingViewField (some field.name) (view.spanAt field.line)
  /-- The projection supplies a field that the view does not read. -/
  | unusedField {store view : SourceFile} {keys : List String} {projection : Symbol} {key : String}
      (stored : component.readable? .store = some store)
      (viewed : component.readable? .view = some view)
      (supplied : component.suppliedFields? conventions = some keys)
      (projected : component.symbol? .store conventions.projectionSymbol = some projection)
      (given : key ∈ keys)
      (unread : ∀ field ∈ membersOf conventions.viewRoot view.text.toList, field.name ≠ key) :
      Breach component conventions .unusedViewField (some key) projection.span
  /-- There are handlers and no store. -/
  | orphan {handlers : SourceFile} (missing : component.hasRole .store = false)
      (handled : component.file? .handlers = some handlers) :
      Breach component conventions .orphanHandlers none (handlers.spanAt 1)
  /-- A name does not follow the pattern of its role. -/
  | name {slot : Slot} {symbols : List Symbol} {pattern : Pattern} {symbol : Symbol}
      (stored : component.symbolsByRole.get? slot = some symbols)
      (governed : conventions.naming.get? slot.role = some pattern)
      (exported : symbol ∈ symbols)
      (free : ¬(slot.role = .store ∧ symbol.name = conventions.projectionSymbol))
      (odd : pattern.accepts symbol.name = false) :
      Breach component conventions .namingViolation (some symbol.name) symbol.span

/-- The diagnostic reports a breach of this contract. -/
def Reported (component : Component) (conventions : Conventions) (contract : Contract)
    (d : Diagnostic) : Prop :=
  ∃ symbol span, component.Breach conventions contract symbol span ∧
    d.Reports contract component.id symbol span

variable {component : Component} {conventions : Conventions} {d : Diagnostic}

/-! What is reported is a breach -/

theorem reported_of_mem_storeCalls (member : d ∈ component.storeCalls conventions) :
    component.Reported conventions .unknownStoreMethod d := by
  rw [storeCalls] at member
  split at member
  next store handlers stored handled =>
    obtain ⟨read, unresolved, rfl⟩ := List.mem_map.mp member
    obtain ⟨read, unresolved⟩ := List.mem_filter.mp unresolved
    rw [Bool.not_eq_true'] at unresolved
    exact ⟨_, _, .storeCall stored handled read unresolved,
      (Diagnostic.breach_withSymbol_reports _ _ _ _ _).withHintIf _ _⟩
  · cases member

theorem reported_of_mem_missingFields {store view : SourceFile} {keys : List String}
    (stored : component.readable? .store = some store)
    (viewed : component.readable? .view = some view)
    (supplied : component.suppliedFields? conventions = some keys)
    (member : d ∈ component.missingFields conventions store view
      (membersOf conventions.viewRoot view.text.toList) keys) :
    component.Reported conventions .missingViewField d := by
  obtain ⟨field, missing, rfl⟩ := List.mem_map.mp member
  obtain ⟨read, missing⟩ := List.mem_filter.mp missing
  have missing : field.name ∉ keys := by simpa using missing
  exact ⟨_, _, .missingField stored viewed supplied read missing,
    (Diagnostic.breach_withSymbol_reports _ _ _ _ _).withHintIf _ _⟩

theorem reported_of_mem_unusedFields {store view : SourceFile} {keys : List String}
    (stored : component.readable? .store = some store)
    (viewed : component.readable? .view = some view)
    (supplied : component.suppliedFields? conventions = some keys)
    (member : d ∈ component.unusedFields conventions
      (membersOf conventions.viewRoot view.text.toList) keys) :
    component.Reported conventions .unusedViewField d := by
  rw [unusedFields] at member
  split at member
  · cases member
  next projection projected =>
    obtain ⟨key, unread, rfl⟩ := List.mem_map.mp member
    obtain ⟨given, unread⟩ := List.mem_filter.mp unread
    have unread : ∀ field ∈ membersOf conventions.viewRoot view.text.toList,
        field.name ≠ key := by simpa using unread
    exact ⟨_, _, .unusedField stored viewed supplied projected given unread,
      Diagnostic.breach_withSymbol_reports _ _ _ _ _⟩

theorem reported_of_mem_viewFields (member : d ∈ component.viewFields conventions) :
    component.Reported conventions .missingViewField d ∨
      component.Reported conventions .unusedViewField d := by
  rw [viewFields] at member
  split at member
  next store view keys stored viewed supplied =>
    rcases List.mem_append.mp member with missing | unused
    · exact Or.inl (reported_of_mem_missingFields stored viewed supplied missing)
    · exact Or.inr (reported_of_mem_unusedFields stored viewed supplied unused)
  · cases member

theorem reported_of_mem_orphanHandlers (member : d ∈ component.orphanHandlers) :
    component.Reported conventions .orphanHandlers d := by
  rw [orphanHandlers] at member
  split at member
  · cases member
  next missing =>
    obtain ⟨handlers, handled, rfl⟩ := List.mem_map.mp member
    have missing : component.hasRole .store = false := by simpa using missing
    exact ⟨_, _, .orphan missing (Option.mem_toList.mp handled), Diagnostic.breach_reports _ _ _ _⟩

theorem reported_of_mem_naming (member : d ∈ component.naming conventions) :
    component.Reported conventions .namingViolation d := by
  -- the symbols of a slot are checked by the pattern of the slot's role, where it has one
  obtain ⟨⟨slot, symbols⟩, kept, member⟩ := List.mem_flatMap.mp member
  have stored := SlotMap.get?_eq_some_iff.mpr kept
  dsimp only at member
  split at member
  · cases member
  next pattern governed =>
    obtain ⟨symbol, odd, rfl⟩ := List.mem_map.mp member
    obtain ⟨exported, odd⟩ := List.mem_filter.mp odd
    rw [Bool.and_eq_true, Bool.not_eq_true', Bool.not_eq_true', ← Bool.not_eq_true,
      Bool.and_eq_true, decide_eq_true_eq, decide_eq_true_eq] at odd
    exact ⟨_, _, .name stored governed exported odd.1 odd.2,
      Diagnostic.breach_withSymbol_reports _ _ _ _ _⟩

theorem Reported.escalate {contract : Contract}
    (reported : component.Reported conventions contract d) (strict : Bool) :
    component.Reported conventions contract (d.escalate strict) := by
  obtain ⟨symbol, span, breach, reports⟩ := reported
  exact ⟨symbol, span, breach, reports.escalate strict⟩

/-- Every diagnostic of the rules reports a breach. -/
theorem reported_of_mem_validate (member : d ∈ component.validate conventions) :
    ∃ contract, component.Reported conventions contract d := by
  obtain ⟨found, told, rfl⟩ := List.mem_map.mp member
  rw [List.mem_append, List.mem_append, List.mem_append] at told
  -- the rules in the order in which they are run; raising a warning keeps what is reported
  rcases told with ((call | field) | orphan) | name
  · exact ⟨_, (reported_of_mem_storeCalls call).escalate _⟩
  · rcases reported_of_mem_viewFields field with missing | unused
    · exact ⟨_, missing.escalate _⟩
    · exact ⟨_, unused.escalate _⟩
  · exact ⟨_, (reported_of_mem_orphanHandlers orphan).escalate _⟩
  · exact ⟨_, (reported_of_mem_naming name).escalate _⟩

/-! Every breach is reported -/

theorem Breach.exists_report {contract : Contract} {symbol : Option String} {span : Span}
    (breach : component.Breach conventions contract symbol span) :
    ∃ d ∈ component.validate conventions, d.Reports contract component.id symbol span := by
  suffices told : ∃ d : Diagnostic, (((d ∈ component.storeCalls conventions ∨
      d ∈ component.viewFields conventions) ∨ d ∈ component.orphanHandlers) ∨
      d ∈ component.naming conventions) ∧ d.Reports contract component.id symbol span by
    obtain ⟨d, member, reports⟩ := told
    rw [← List.mem_append, ← List.mem_append, ← List.mem_append] at member
    exact ⟨_, List.mem_map_of_mem member, reports.escalate _⟩
  -- each kind of breach is found by the rule of its contract, whose list holds a report of it
  cases breach with
  | @storeCall store handlers read stored handled known unresolved =>
    have told : ∃ d ∈ component.storeCalls conventions,
        d.Reports .unknownStoreMethod component.id (some read.name)
          (handlers.spanAt read.line) := by
      rw [storeCalls, stored, handled]
      exact ⟨_, List.mem_map_of_mem (List.mem_filter.mpr ⟨known, by simp [unresolved]⟩),
        (Diagnostic.breach_withSymbol_reports _ _ _ _ _).withHintIf _ _⟩
    obtain ⟨d, member, reports⟩ := told
    exact ⟨d, .inl (.inl (.inl member)), reports⟩
  | @missingField store view keys field stored viewed supplied read missing =>
    have told : ∃ d ∈ component.viewFields conventions,
        d.Reports .missingViewField component.id (some field.name) (view.spanAt field.line) := by
      rw [viewFields, stored, viewed, supplied]
      exact ⟨_, List.mem_append_left _ (List.mem_map_of_mem
          (List.mem_filter.mpr ⟨read, by simpa using missing⟩)),
        (Diagnostic.breach_withSymbol_reports _ _ _ _ _).withHintIf _ _⟩
    obtain ⟨d, member, reports⟩ := told
    exact ⟨d, .inl (.inl (.inr member)), reports⟩
  | @unusedField store view keys projection key stored viewed supplied projected given unread =>
    have told : ∃ d ∈ component.viewFields conventions,
        d.Reports .unusedViewField component.id (some key) projection.span := by
      simp only [viewFields, stored, viewed, supplied, unusedFields, projected]
      exact ⟨_, List.mem_append_right _ (List.mem_map_of_mem
          (List.mem_filter.mpr ⟨given, by simpa using unread⟩)),
        Diagnostic.breach_withSymbol_reports _ _ _ _ _⟩
    obtain ⟨d, member, reports⟩ := told
    exact ⟨d, .inl (.inl (.inr member)), reports⟩
  | @orphan handlers missing handled =>
    have told : ∃ d ∈ component.orphanHandlers,
        d.Reports .orphanHandlers component.id none (handlers.spanAt 1) := by
      rw [orphanHandlers, missing, handled]
      exact ⟨_, List.mem_singleton_self _, Diagnostic.breach_reports _ _ _ _⟩
    obtain ⟨d, member, reports⟩ := told
    exact ⟨d, .inl (.inr member), reports⟩
  | @name slot symbols pattern symbol stored governed exported free odd =>
    have told : ∃ d ∈ component.naming conventions,
        d.Reports .namingViolation component.id (some symbol.name) symbol.span := by
      refine ⟨?_, List.mem_flatMap.mpr ⟨(slot, symbols), SlotMap.get?_eq_some_iff.mp stored,
        ?inside⟩, ?reports⟩
      case inside =>
        dsimp only
        rw [governed]
        refine List.mem_map_of_mem (List.mem_filter.mpr ⟨exported, ?_⟩)
        rw [Decidable.not_and_iff_not_or_not] at free
        simpa [odd] using free
      case reports => exact Diagnostic.breach_withSymbol_reports _ _ _ _ _
    obtain ⟨d, member, reports⟩ := told
    exact ⟨d, .inr member, reports⟩

/-- The rules report the breaches and nothing else. -/
theorem exists_report_iff {contract : Contract} {symbol : Option String} {span : Span} :
    (∃ d ∈ component.validate conventions, d.Reports contract component.id symbol span) ↔
      component.Breach conventions contract symbol span := by
  constructor
  · rintro ⟨d, member, reports⟩
    -- the diagnostic reports some breach, and it can report only one thing
    obtain ⟨contract', symbol', span', breach, reports'⟩ := reported_of_mem_validate member
    obtain ⟨rfl, rfl, rfl⟩ := reports.unique reports'
    exact breach
  · exact Breach.exists_report

/-! How often a contract is reported -/

/-- How many diagnostics of the rules report this contract. -/
def reportCount (component : Component) (conventions : Conventions) (contract : Contract) : Nat :=
  (component.validate conventions).countP fun d => d.code = contract.code

theorem countP_eq_zero_of_reported {found : List Diagnostic} {contract : Contract}
    (others : ∀ d ∈ found, ∃ other, other ≠ contract ∧ component.Reported conventions other d) :
    (found.countP fun d => d.code = contract.code) = 0 := by
  rw [List.countP_eq_zero]
  intro d member
  obtain ⟨other, differ, _, _, _, reports⟩ := others d member
  have same : ¬d.code = contract.code := fun same =>
    differ (Contract.code_injective (reports.code.symm.trans same))
  simpa using same

/-- Handlers without a store are reported once. -/
theorem reportCount_orphanHandlers :
    component.reportCount conventions .orphanHandlers =
      if component.hasRole .store then 0 else (component.file? .handlers).toList.length := by
  -- the other rules report other contracts
  have calls : ((component.storeCalls conventions).countP fun d =>
      d.code = Contract.orphanHandlers.code) = 0 := by
    apply countP_eq_zero_of_reported
    intro d member
    exact ⟨_, by decide, reported_of_mem_storeCalls member⟩
  have fields : ((component.viewFields conventions).countP fun d =>
      d.code = Contract.orphanHandlers.code) = 0 := by
    apply countP_eq_zero_of_reported
    intro d member
    rcases reported_of_mem_viewFields member with missing | unused
    · exact ⟨_, by decide, missing⟩
    · exact ⟨_, by decide, unused⟩
  have names : ((component.naming conventions).countP fun d =>
      d.code = Contract.orphanHandlers.code) = 0 := by
    apply countP_eq_zero_of_reported
    intro d member
    exact ⟨_, by decide, reported_of_mem_naming member⟩
  have orphans : (component.orphanHandlers.countP fun d =>
      d.code = Contract.orphanHandlers.code) = component.orphanHandlers.length := by
    rw [List.countP_eq_length]
    intro d member
    have reported : component.Reported conventions .orphanHandlers d :=
      reported_of_mem_orphanHandlers member
    obtain ⟨_, _, _, reports⟩ := reported
    simpa using reports.code
  rw [reportCount, validate, List.countP_map, Function.comp_def]
  simp only [Diagnostic.code_escalate, List.countP_append, calls, fields, names, orphans]
  rw [orphanHandlers]
  split <;> simp

end Component

end Concord
