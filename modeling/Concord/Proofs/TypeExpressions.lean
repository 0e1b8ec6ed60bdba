import Concord.Proofs.WordsAndGroups

/-!
Types as they are written: names, names with type arguments, object types, array types and unions,
in any nesting. The text of a type is made of items that are read wherever it stands, and each of
its tokens is a name, a mark or a group.
-/
namespace Concord.Export

open Concord.Scan Concord.Text

/-! Syntax -/

/-- A word that is no keyword of a declaration and holds no blank. -/
structure Identifier extends Word where
  dark : (text.all fun x => !isBlank x) = true := by decide +kernel
  unreserved : text ∉ ["export".toList, "function".toList] := by decide +kernel

mutual

/-- A type, in which object types stand only if `objects` says so. -/
inductive TypeExpr (objects : Bool) where
  | name (name : Identifier)
  | generic (name : Identifier) (arguments : TypeList objects)
  | object (allowed : objects = true) (fields : Group .curly)
  | array (element : TypeExpr objects)
  | union (left right : TypeExpr objects)

/-- One type or more. -/
inductive TypeList (objects : Bool) where
  | one (type : TypeExpr objects)
  | more (type : TypeExpr objects) (others : TypeList objects)

end

variable {objects : Bool}

mutual

def TypeExpr.text : TypeExpr objects → List Char
  | .name name => name.text
  | .generic name arguments => name.text ++ '<' :: (arguments.text ++ ['>'])
  | .object _ fields => fields.text
  | .array element => element.text ++ "[]".toList
  | .union left right => left.text ++ (" | ".toList ++ right.text)

/-- The types with commas between them. -/
def TypeList.text : TypeList objects → List Char
  | .one type => type.text
  | .more type others => type.text ++ (", ".toList ++ others.text)

end

mutual

/-- The tokens of a type and the blanks between them. -/
def TypeExpr.items : TypeExpr objects → List Item
  | .name name => [.token name.text]
  | .generic name arguments =>
    .token name.text :: .token ['<'] :: (arguments.items ++ [.token ['>']])
  | .object _ fields => [.token fields.text]
  | .array element => element.items ++ [.token "[]".toList]
  | .union left right =>
    left.items ++ .gap [' '] :: .token ['|'] :: .gap [' '] :: right.items

def TypeList.items : TypeList objects → List Item
  | .one type => type.items
  | .more type others => type.items ++ .token [','] :: .gap [' '] :: others.items

end

/-- A token of a type. -/
inductive TypeToken (objects : Bool) : List Char → Prop
  | name (name : Identifier) : TypeToken objects name.text
  | mark {x : Char} (among : x ∈ ['<', '>', ',', '|']) : TypeToken objects [x]
  | brackets : TypeToken objects "[]".toList
  | object (allowed : objects = true) (fields : Group .curly) : TypeToken objects fields.text

/-! Items -/

mutual

theorem TypeExpr.source_items (t : TypeExpr objects) : Item.source t.items = t.text := by
  match t with
  | .name name => simp [TypeExpr.items, TypeExpr.text, Item.text]
  | .generic name arguments =>
    simp [TypeExpr.items, TypeExpr.text, Item.text, arguments.source_items]
  | .object allowed fields => simp [TypeExpr.items, TypeExpr.text, Item.text]
  | .array element => simp [TypeExpr.items, TypeExpr.text, Item.text, element.source_items]
  | .union left right =>
    simp [TypeExpr.items, TypeExpr.text, Item.text, left.source_items, right.source_items]

theorem TypeList.source_items (l : TypeList objects) : Item.source l.items = l.text := by
  match l with
  | .one type => exact type.source_items
  | .more type others =>
    simp [TypeList.items, TypeList.text, Item.text, type.source_items, others.source_items]

end

mutual

/-- A type starts with a token, and one without object types with a name. -/
theorem TypeExpr.starts (t : TypeExpr objects) :
    ∃ text later, t.items = .token text :: later ∧
      (objects = false → ∃ name : Identifier, text = name.text) := by
  match t with
  | .name name | .generic name arguments => exact ⟨_, _, rfl, fun _ => ⟨name, rfl⟩⟩
  | .object allowed fields =>
    refine ⟨_, _, rfl, fun none => ?_⟩
    rw [allowed] at none
    cases none
  | .array element =>
    obtain ⟨text, later, starts, named⟩ := element.starts
    exact ⟨text, _, by rw [TypeExpr.items, starts, List.cons_append], named⟩
  | .union left right =>
    obtain ⟨text, later, starts, named⟩ := left.starts
    exact ⟨text, _, by rw [TypeExpr.items, starts, List.cons_append], named⟩

theorem TypeList.starts (l : TypeList objects) :
    ∃ text later, l.items = .token text :: later ∧
      (objects = false → ∃ name : Identifier, text = name.text) := by
  match l with
  | .one type => exact type.starts
  | .more type others =>
    obtain ⟨text, later, starts, named⟩ := type.starts
    exact ⟨text, _, by rw [TypeList.items, starts, List.cons_append], named⟩

end

mutual

/-- In front of what continues no word, a type is read. -/
theorem TypeExpr.readable (t : TypeExpr objects) {later : List Item}
    (ends : ∀ x ∈ (Item.source later).head?, isWordPart x = false) (reads : Readable later []) :
    Readable (t.items ++ later) [] := by
  -- by recursion over the type; a name is in front of a mark or of what follows the type
  match t with
  | .name name => exact name.readable (by rwa [List.append_nil]) reads
  | .generic name arguments =>
    have closed : Readable (.token ['>'] :: later) [] := .mark (by decide) reads
    have inside := arguments.readable (by rintro _ ⟨⟩; decide) closed
    have opened : Readable (.token ['<'] :: (arguments.items ++ .token ['>'] :: later)) [] :=
      .mark (by decide) inside
    rw [TypeExpr.items, List.cons_append, List.cons_append, List.append_assoc]
    exact name.readable (by rintro _ ⟨⟩; decide) opened
  -- an object type is one group
  | .object allowed fields => exact .group fields.whole reads
  | .array element =>
    rw [TypeExpr.items, List.append_assoc]
    have brackets : isGroup .square "[]".toList = true := by decide +kernel
    exact element.readable (by rintro _ ⟨⟩; decide) (.group brackets reads)
  | .union left right =>
    have bar : Readable (.token ['|'] :: .gap [' '] :: (right.items ++ later)) [] :=
      .mark (by decide) (.space (right.readable ends reads))
    rw [TypeExpr.items, List.append_assoc]
    exact left.readable (by rintro _ ⟨⟩; decide) (.space bar)

theorem TypeList.readable (l : TypeList objects) {later : List Item}
    (ends : ∀ x ∈ (Item.source later).head?, isWordPart x = false) (reads : Readable later []) :
    Readable (l.items ++ later) [] := by
  match l with
  | .one type => exact type.readable ends reads
  | .more type others =>
    have comma : Readable (.token [','] :: .gap [' '] :: (others.items ++ later)) [] :=
      .mark (by decide) (.space (others.readable ends reads))
    rw [TypeList.items, List.append_assoc]
    exact type.readable (by rintro _ ⟨⟩; decide) comma

end

mutual

theorem TypeExpr.typeToken_of_mem (t : TypeExpr objects) {text : List Char}
    (member : .token text ∈ t.items) : TypeToken objects text := by
  -- the marks between the parts of a type, and the tokens of the parts
  match t with
  | .name name =>
    cases List.mem_singleton.mp member
    exact .name name
  | .generic name arguments =>
    simp only [TypeExpr.items, List.mem_cons, List.mem_append, List.not_mem_nil, or_false] at member
    rcases member with same | same | member | same
    · cases same
      exact .name name
    · cases same
      exact .mark (by decide)
    · exact arguments.typeToken_of_mem member
    · cases same
      exact .mark (by decide)
  | .object allowed fields =>
    cases List.mem_singleton.mp member
    exact .object allowed fields
  | .array element =>
    simp only [TypeExpr.items, List.mem_append, List.mem_singleton] at member
    rcases member with member | same
    · exact element.typeToken_of_mem member
    · cases same
      exact .brackets
  | .union left right =>
    simp only [TypeExpr.items, List.mem_cons, List.mem_append, reduceCtorEq, false_or] at member
    rcases member with member | same | member
    · exact left.typeToken_of_mem member
    · cases same
      exact .mark (by decide)
    · exact right.typeToken_of_mem member

theorem TypeList.typeToken_of_mem (l : TypeList objects) {text : List Char}
    (member : .token text ∈ l.items) : TypeToken objects text := by
  match l with
  | .one type => exact type.typeToken_of_mem member
  | .more type others =>
    simp only [TypeList.items, List.mem_cons, List.mem_append, reduceCtorEq, false_or] at member
    rcases member with member | same | member
    · exact type.typeToken_of_mem member
    · cases same
      exact .mark (by decide)
    · exact others.typeToken_of_mem member

end

/-- A token of a type neither ends a statement nor starts another. -/
theorem TypeToken.other {text : List Char} (token : TypeToken objects text) :
    text ≠ [';'] ∧ text ≠ "export".toList := by
  cases token with
  | name name =>
    have unreserved := name.unreserved
    rw [List.mem_cons, not_or] at unreserved
    exact ⟨name.ne_mark (by decide), unreserved.1⟩
  | mark among =>
    constructor
    · rintro ⟨⟩
      simp at among
    · exact fun same => by cases congrArg List.length same
  | brackets => decide
  | object allowed fields =>
    constructor <;>
      (intro same; have opens := fields.head_text; rw [same] at opens; cases opens)

end Concord.Export
