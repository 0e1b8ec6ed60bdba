import Concord.Role.Basic

/-!
Maps from slots. They are listed in the order of the slots, each slot at most once, and the list
carries the proof of that.
-/
namespace Concord

namespace Slot

theorem before_irrefl (slot : Slot) : slot.before slot = false := by
  obtain ⟨role, variant⟩ := slot
  rw [before, if_pos rfl]
  cases variant with
  | none => rfl
  | some x => exact decide_eq_false (String.lt_irrefl x)

theorem before_trans {a b c : Slot} (first : a.before b = true) (second : b.before c = true) :
    a.before c = true := by
  obtain ⟨role, variant⟩ := a
  obtain ⟨role', variant'⟩ := b
  obtain ⟨role'', variant''⟩ := c
  simp only [before] at first second ⊢
  by_cases same : role = role'
  · subst same
    by_cases same' : role = role''
    · -- one role: the variants decide
      subst same'
      rw [if_pos rfl] at first second ⊢
      cases variant with
      | none =>
        cases variant'' with
        | none => cases variant' <;> contradiction
        | some z => rfl
      | some x =>
        cases variant' with
        | none => contradiction
        | some y =>
          cases variant'' with
          | none => contradiction
          | some z =>
            exact decide_eq_true
              (String.lt_trans (of_decide_eq_true first) (of_decide_eq_true second))
    · rw [if_neg same'] at second ⊢
      exact second
  · rw [if_neg same] at first
    by_cases same' : role' = role''
    · subst same'
      rw [if_neg same]
      exact first
    · rw [if_neg same'] at second
      rw [decide_eq_true_eq] at first second
      have less := Nat.lt_trans first second
      have differ : role ≠ role'' := by
        rintro rfl
        exact Nat.lt_irrefl _ less
      rw [if_neg differ, decide_eq_true_eq]
      exact less

/-- Of two slots one comes before the other. -/
theorem before_of_not_before {a b : Slot} (differ : a ≠ b) (later : a.before b = false) :
    b.before a = true := by
  obtain ⟨role, variant⟩ := a
  obtain ⟨role', variant'⟩ := b
  simp only [before] at later ⊢
  by_cases same : role = role'
  · subst same
    rw [if_pos rfl] at later ⊢
    cases variant with
    | none => cases variant' <;> simp_all
    | some x =>
      cases variant' with
      | none => rfl
      | some y =>
        rw [decide_eq_false_iff_not, String.not_lt] at later
        rw [decide_eq_true_eq, ← String.not_le]
        intro earlier
        exact differ (by rw [String.le_antisymm earlier later])
  · rw [if_neg same, decide_eq_false_iff_not] at later
    rw [if_neg (Ne.symm same), decide_eq_true_eq]
    exact Nat.lt_of_le_of_ne (Nat.le_of_not_lt later) fun equal =>
      same (Role.priority_injective equal).symm

end Slot

structure SlotMap (α : Type) where
  pairs : List (Slot × α)
  ordered : pairs.Pairwise fun a b => a.1.before b.1 = true
  deriving DecidableEq, Repr

namespace SlotMap

variable {α β : Type}

def empty : SlotMap α :=
  ⟨[], List.Pairwise.nil⟩

def keys (map : SlotMap α) : List Slot :=
  map.pairs.map Prod.fst

def get? (map : SlotMap α) (slot : Slot) : Option α :=
  (map.pairs.find? fun pair => pair.1 = slot).map Prod.snd

/-- Puts a value in front of the first one whose slot comes later, or in place of the one that had
its slot. -/
def insertPair (slot : Slot) (value : α) : List (Slot × α) → List (Slot × α)
  | [] => [(slot, value)]
  | (key, kept) :: rest =>
    if slot = key then (slot, value) :: rest
    else if slot.before key then (slot, value) :: (key, kept) :: rest
    else (key, kept) :: insertPair slot value rest

theorem mem_insertPair {slot : Slot} {value : α} {pairs : List (Slot × α)} {pair : Slot × α}
    (member : pair ∈ insertPair slot value pairs) : pair = (slot, value) ∨ pair ∈ pairs := by
  induction pairs with
  | nil => exact Or.inl (List.mem_singleton.mp member)
  | cons first rest ih =>
    rw [insertPair] at member
    split at member
    · exact (List.mem_cons.mp member).imp_right (List.mem_cons_of_mem first)
    · split at member
      · exact List.mem_cons.mp member
      · rcases List.mem_cons.mp member with rfl | later
        · exact Or.inr List.mem_cons_self
        · exact (ih later).imp_right (List.mem_cons_of_mem first)

theorem insertPair_ordered {slot : Slot} {value : α} {pairs : List (Slot × α)}
    (ordered : pairs.Pairwise fun a b => a.1.before b.1 = true) :
    (insertPair slot value pairs).Pairwise fun a b => a.1.before b.1 = true := by
  induction pairs with
  | nil => exact List.pairwise_singleton _ _
  | cons first rest ih =>
    obtain ⟨key, kept⟩ := first
    obtain ⟨ahead, behind⟩ := List.pairwise_cons.mp ordered
    rw [insertPair]
    split
    next same =>
      subst same
      exact List.pairwise_cons.mpr ⟨ahead, behind⟩
    next differ =>
      split
      next before =>
        refine List.pairwise_cons.mpr ⟨?_, ordered⟩
        intro pair member
        rcases List.mem_cons.mp member with rfl | member
        · exact before
        · exact Slot.before_trans before (ahead pair member)
      next later =>
        have after := Slot.before_of_not_before differ (Bool.not_eq_true _ |>.mp later)
        refine List.pairwise_cons.mpr ⟨?_, ih behind⟩
        intro pair member
        rcases mem_insertPair member with rfl | member
        · exact after
        · exact ahead pair member

def insert (map : SlotMap α) (slot : Slot) (value : α) : SlotMap α :=
  ⟨insertPair slot value map.pairs, insertPair_ordered map.ordered⟩

def map (f : α → β) (map : SlotMap α) : SlotMap β :=
  ⟨map.pairs.map fun pair => (pair.1, f pair.2), List.pairwise_map.mpr map.ordered⟩

variable {map : SlotMap α} {slot key : Slot} {value : α}

/-! Keys -/

theorem nodup_keys (map : SlotMap α) : map.keys.Nodup := by
  refine List.pairwise_map.mpr (map.ordered.imp fun before same => ?_)
  rw [same, Slot.before_irrefl] at before
  cases before

theorem get?_eq_none_iff : map.get? slot = none ↔ slot ∉ map.keys := by
  rw [get?, keys, Option.map_eq_none_iff, List.find?_eq_none]
  constructor
  · intro missing taken
    obtain ⟨pair, member, rfl⟩ := List.mem_map.mp taken
    exact missing pair member (decide_eq_true rfl)
  · intro free pair member same
    exact free (List.mem_map.mpr ⟨pair, member, by simpa using same⟩)

/-- A slot has one value, the one that is found. -/
theorem get?_eq_some_iff : map.get? slot = some value ↔ (slot, value) ∈ map.pairs := by
  constructor
  · intro found
    obtain ⟨pair, first, rfl⟩ := Option.map_eq_some_iff.mp found
    have same : pair.1 = slot := by simpa using List.find?_some first
    rw [← same]
    exact List.mem_of_find?_eq_some first
  · intro member
    have distinct := map.nodup_keys
    rw [keys] at distinct
    rw [get?]
    generalize map.pairs = pairs at member distinct
    induction pairs with
    | nil => cases member
    | cons first rest ih =>
      obtain ⟨fresh, later⟩ := List.nodup_cons.mp distinct
      rcases List.mem_cons.mp member with rfl | member
      · simp
      · have differ : first.1 ≠ slot := by
          intro same
          exact fresh (List.mem_map.mpr ⟨_, member, same.symm⟩)
        rw [List.find?_cons_of_neg (by simpa using differ)]
        exact ih member later

theorem pairs_eq_map_keys (fallback : α) (map : SlotMap α) :
    map.pairs = map.keys.map fun slot => (slot, (map.get? slot).getD fallback) := by
  have kept : ∀ pair ∈ map.pairs, (pair.1, (map.get? pair.1).getD fallback) = pair := by
    intro pair member
    rw [get?_eq_some_iff.mpr member]
    rfl
  rw [keys, List.map_map]
  exact ((List.map_congr_left kept).trans (List.map_id _)).symm

/-! One more value -/

theorem get?_insert : (map.insert slot value).get? key =
    if key = slot then some value else map.get? key := by
  simp only [get?, insert]
  induction map.pairs with
  | nil => by_cases same : key = slot <;> simp [insertPair, eq_comm, same]
  | cons first rest ih =>
    obtain ⟨other, kept⟩ := first
    rw [insertPair]
    by_cases here : slot = other
    · subst here
      by_cases same : key = slot <;> simp [same, eq_comm]
    · rw [if_neg here]
      by_cases same : key = slot
      · subst same
        split
        · simp
        · rw [if_pos rfl] at ih
          rw [if_pos rfl, List.find?_cons_of_neg (by simpa using Ne.symm here), ih]
      · rw [if_neg same] at ih ⊢
        split
        · rw [List.find?_cons_of_neg (by simpa using Ne.symm same)]
        · by_cases found : other = key
          · simp [found]
          · rw [List.find?_cons_of_neg (by simpa using found),
              List.find?_cons_of_neg (by simpa using found), ih]

/-- Which slots are taken does not depend on what is kept there. -/
theorem keys_insert {map' : SlotMap β} {value' : β} (same : map'.keys = map.keys) :
    (map'.insert slot value').keys = (map.insert slot value).keys := by
  simp only [keys, insert] at same ⊢
  generalize map'.pairs = pairs', map.pairs = pairs at same ⊢
  induction pairs generalizing pairs' with
  | nil =>
    obtain rfl : pairs' = [] := by simpa using same
    rfl
  | cons first rest ih =>
    cases pairs' with
    | nil => cases same
    | cons first' rest' =>
      obtain ⟨other, kept⟩ := first
      obtain ⟨other', kept'⟩ := first'
      obtain ⟨rfl, later⟩ := List.cons.inj same
      rw [insertPair, insertPair]
      split
      · simp only [List.map_cons, later]
      · split
        · simp only [List.map_cons, later]
        · simp only [List.map_cons, ih _ later]

theorem insert_perm (free : slot ∉ map.keys) :
    (map.insert slot value).pairs.Perm ((slot, value) :: map.pairs) := by
  simp only [keys, insert] at free ⊢
  generalize map.pairs = pairs at free ⊢
  induction pairs with
  | nil => exact .refl _
  | cons first rest ih =>
    obtain ⟨other, kept⟩ := first
    rw [List.map_cons, List.mem_cons, not_or] at free
    rw [insertPair, if_neg free.1]
    split
    · exact .refl _
    · exact ((ih free.2).cons _).trans (.swap _ _ _)

theorem map_insert (f : α → β) (map : SlotMap α) (slot : Slot) (value : α) :
    (map.insert slot value).map f = (map.map f).insert slot (f value) := by
  have pairs : (insertPair slot value map.pairs).map (fun pair => (pair.1, f pair.2)) =
      insertPair slot (f value) (map.pairs.map fun pair => (pair.1, f pair.2)) := by
    induction map.pairs with
    | nil => rfl
    | cons first rest ih =>
      obtain ⟨other, kept⟩ := first
      simp only [insertPair, List.map_cons]
      split
      · rfl
      · split
        · rfl
        · rw [List.map_cons, ih]
  simp only [SlotMap.map, insert, pairs]

theorem get?_map (f : α → β) (map : SlotMap α) (slot : Slot) :
    (map.map f).get? slot = (map.get? slot).map f := by
  simp only [get?, SlotMap.map, List.find?_map, Option.map_map]
  rfl

theorem map_map {γ : Type} (g : β → γ) (f : α → β) (map : SlotMap α) :
    (map.map f).map g = map.map fun value => g (f value) := by
  simp only [SlotMap.map, List.map_map]
  rfl

@[simp] theorem keys_map (f : α → β) (map : SlotMap α) : (map.map f).keys = map.keys := by
  simp only [keys, SlotMap.map, List.map_map]
  rfl

end SlotMap

end Concord
