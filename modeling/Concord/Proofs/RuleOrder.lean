import Concord.Proofs.RuleReports
import Mathlib.Data.List.Nodup

/-!
The order of what the rules report. Every rule reports contracts of its own, so the diagnostics of a
component fall into one block for each contract, and the blocks come in a fixed order. What is
reported of one contract is its block.
-/
namespace Concord

open Concord.Access

/-- The contracts that the rules look at, in the order in which their breaches are reported. -/
def Contract.ruled : List Contract :=
  [unknownStoreMethod, missingViewField, unusedViewField, orphanHandlers, namingViolation]

namespace Component

variable [ScriptParser]

/-- What the rules find of one contract. -/
def findings (component : Component) (conventions : Conventions) : Contract → List Diagnostic
  | .unknownStoreMethod => component.storeCalls conventions
  | .missingViewField =>
    match component.readable? .store, component.readable? .view,
      component.suppliedFields? conventions with
    | some store, some view, some keys =>
      component.missingFields conventions store view
        (membersOf conventions.viewRoot view.text.toList) keys
    | _, _, _ => []
  | .unusedViewField =>
    match component.readable? .store, component.readable? .view,
      component.suppliedFields? conventions with
    | some _, some view, some keys =>
      component.unusedFields conventions (membersOf conventions.viewRoot view.text.toList) keys
    | _, _, _ => []
  | .orphanHandlers => component.orphanHandlers
  | .namingViolation => component.naming conventions
  | _ => []

/-- The diagnostics of the rules that report this contract, in order. -/
def reportsOf (component : Component) (conventions : Conventions) (contract : Contract) :
    List Diagnostic :=
  (component.validate conventions).filter fun d => d.code = contract.code

/-- The names they are about. -/
def reportedNames (component : Component) (conventions : Conventions) (contract : Contract) :
    List (Option String) :=
  (component.reportsOf conventions contract).map Diagnostic.symbol

variable (component : Component) (conventions : Conventions)

theorem viewFields_eq :
    component.viewFields conventions =
      component.findings conventions .missingViewField ++
        component.findings conventions .unusedViewField := by
  rw [viewFields, findings, findings]
  cases component.readable? .store <;> cases component.readable? .view <;>
    cases component.suppliedFields? conventions <;> rfl

theorem validate_eq_flatMap :
    component.validate conventions =
      Contract.ruled.flatMap fun contract =>
        (component.findings conventions contract).map
          (Diagnostic.escalate conventions.treatWarningsAsErrors) := by
  rw [validate, viewFields_eq]
  simp only [Contract.ruled, List.flatMap_cons, List.flatMap_nil, List.map_append,
    List.append_assoc, List.append_nil]
  rfl

variable {component conventions}

theorem reported_of_mem_findings {contract : Contract} {d : Diagnostic}
    (member : d ∈ component.findings conventions contract) :
    component.Reported conventions contract d := by
  -- the two rules about fields look up the same three things and report both
  cases contract with
  | unknownStoreMethod => exact reported_of_mem_storeCalls member
  | missingViewField =>
    rw [findings] at member
    split at member
    next stored viewed supplied =>
      exact reported_of_mem_missingFields stored viewed supplied member
    · cases member
  | unusedViewField =>
    rw [findings] at member
    split at member
    next stored viewed supplied => exact reported_of_mem_unusedFields stored viewed supplied member
    · cases member
  | orphanHandlers => exact reported_of_mem_orphanHandlers member
  | namingViolation => exact reported_of_mem_naming member
  | parseAmbiguous | duplicateRole | duplicateExport | strayFile => cases member

theorem code_of_mem_findings {contract : Contract} {d : Diagnostic}
    (member : d ∈ component.findings conventions contract) : d.code = contract.code := by
  obtain ⟨_, _, _, reports⟩ := reported_of_mem_findings member
  exact reports.code

/-- What is reported of a contract is what the rules find of it. -/
theorem reportsOf_eq {contract : Contract} (ruled : contract ∈ Contract.ruled) :
    component.reportsOf conventions contract =
      (component.findings conventions contract).map
        (Diagnostic.escalate conventions.treatWarningsAsErrors) := by
  -- a block is kept as a whole if it is the one of the contract, and dropped as a whole if not
  have kept (other : Contract) :
      ((component.findings conventions other).map
        (Diagnostic.escalate conventions.treatWarningsAsErrors)).filter
          (fun d => d.code = contract.code) =
        if other = contract then (component.findings conventions contract).map
          (Diagnostic.escalate conventions.treatWarningsAsErrors) else [] := by
    split
    next same =>
      subst same
      rw [List.filter_eq_self]
      intro d member
      obtain ⟨found, told, rfl⟩ := List.mem_map.mp member
      simpa using code_of_mem_findings told
    next differ =>
      rw [List.filter_eq_nil_iff]
      intro d member
      obtain ⟨found, told, rfl⟩ := List.mem_map.mp member
      have code := code_of_mem_findings told
      have apart : other.code ≠ contract.code := fun same => differ (Contract.code_injective same)
      simpa [code] using apart
  rw [reportsOf, validate_eq_flatMap, List.filter_flatMap]
  simp only [kept]
  simp only [Contract.ruled, List.mem_cons, List.not_mem_nil, or_false] at ruled
  rcases ruled with rfl | rfl | rfl | rfl | rfl <;> simp [Contract.ruled]

/-- The codes of a component come in the order of the contracts. -/
theorem map_code_validate :
    (component.validate conventions).map Diagnostic.code =
      Contract.ruled.flatMap fun contract =>
        List.replicate (component.reportCount conventions contract) contract.code := by
  rw [validate_eq_flatMap, List.map_flatMap]
  apply List.flatMap_congr
  intro contract ruled
  have count : component.reportCount conventions contract =
      (component.findings conventions contract).length := by
    rw [reportCount, List.countP_eq_length_filter, ← reportsOf, reportsOf_eq ruled, List.length_map]
  rw [count, List.eq_replicate_iff]
  refine ⟨by simp, ?_⟩
  intro code member
  simp only [List.map_map, List.mem_map, Function.comp_apply, Diagnostic.code_escalate] at member
  obtain ⟨d, found, rfl⟩ := member
  exact code_of_mem_findings found

end Component

end Concord
