/-!
Roles, and tables with at most one entry for each role.
-/
namespace Concord

/-- The part a file plays in its component. The order of the constructors is the order of
priority. -/
inductive Role where
  | store
  | handlers
  | view
  | impl
  | unknown
  deriving DecidableEq, Repr

namespace Role

def all : List Role :=
  [store, handlers, view, impl, unknown]

def label : Role → String
  | store => "store"
  | handlers => "handlers"
  | view => "view"
  | impl => "impl"
  | unknown => "unknown"

def ofLabel? (label : String) : Option Role :=
  all.find? fun role => role.label = label

def priority : Role → Nat
  | store => 0
  | handlers => 1
  | view => 2
  | impl => 3
  | unknown => 4

theorem mem_all (role : Role) : role ∈ all := by
  cases role <;> decide

theorem priority_injective {a b : Role} (same : a.priority = b.priority) : a = b := by
  cases a <;> cases b <;> simp_all [priority]

@[simp] theorem ofLabel?_label (role : Role) : ofLabel? role.label = some role := by
  cases role <;> decide

end Role

/-- A table by role. -/
structure RoleMap (α : Type) where
  store : Option α := none
  handlers : Option α := none
  view : Option α := none
  impl : Option α := none
  unknown : Option α := none
  deriving DecidableEq, Repr

namespace RoleMap

variable {α β : Type}

def get? (map : RoleMap α) : Role → Option α
  | .store => map.store
  | .handlers => map.handlers
  | .view => map.view
  | .impl => map.impl
  | .unknown => map.unknown

def insert (map : RoleMap α) (role : Role) (value : α) : RoleMap α :=
  match role with
  | .store => { map with store := some value }
  | .handlers => { map with handlers := some value }
  | .view => { map with view := some value }
  | .impl => { map with impl := some value }
  | .unknown => { map with unknown := some value }

/-- The entries in order of priority. -/
def toList (map : RoleMap α) : List (Role × α) :=
  Role.all.filterMap fun role => (map.get? role).map fun value => (role, value)

theorem get?_insert (map : RoleMap α) (role other : Role) (value : α) :
    (map.insert role value).get? other = if other = role then some value else map.get? other := by
  cases role <;> cases other <;> rfl

theorem mem_toList {map : RoleMap α} {role : Role} {value : α} :
    (role, value) ∈ map.toList ↔ map.get? role = some value := by
  simp only [toList, List.mem_filterMap, Option.map_eq_some_iff, Prod.mk.injEq]
  constructor
  · rintro ⟨_, -, _, found, rfl, rfl⟩
    exact found
  · intro found
    exact ⟨role, Role.mem_all role, value, found, rfl, rfl⟩

end RoleMap

/-- The place of a file inside a component: its role and, for a role with variants, the variant. -/
structure Slot where
  role : Role
  variant : Option String := none
  deriving DecidableEq, Repr

def Slot.label (slot : Slot) : String :=
  match slot.variant with
  | some variant => s!"{slot.role.label}:{variant}"
  | none => slot.role.label

/-- Slots go by role; the one without a variant comes first, then variants in text order. -/
def Slot.before (a b : Slot) : Bool :=
  if a.role = b.role then
    match a.variant, b.variant with
    | none, some _ => true
    | some x, some y => x < y
    | _, none => false
  else a.role.priority < b.role.priority

end Concord
