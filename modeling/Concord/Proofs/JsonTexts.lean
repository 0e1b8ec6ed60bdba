import Concord.Proofs.JsonStrings
import Concord.Proofs.Lexemes
import Mathlib.Data.List.Forall2

/-!
JSON texts and their readers. `ReadsAs` says of a typed reader that it gives a value for a text,
with any space in front and anything that may follow a value behind; such facts are put together
along arrays and objects. Of an object the reader keeps a record, and `Fills` says how one member
changes it.
-/
namespace Concord.Json

open Concord.Scan

/-! Space -/

def IsSpaced (space : List Char) : Prop :=
  ∀ c ∈ space, isSpace c = true

/-- Behind a value the text ends or goes on with space, a comma or a closing bracket. -/
def Ends (rest : List Char) : Prop :=
  ∀ c ∈ rest.head?, isSpace c = true ∨ c = ',' ∨ c = ']' ∨ c = '\x7d'

/-- The text starts neither with space nor with what stands between or behind the items of an
array. -/
def Opens (text : List Char) : Prop :=
  ∃ c rest, text = c :: rest ∧ isSpace c = false ∧ c ≠ ',' ∧ c ≠ ']'

theorem isSpaced_nil : IsSpaced [] := by
  simp [IsSpaced]

theorem ends_nil : Ends [] := by
  simp [Ends]

theorem ends_cons {c : Char} (closes : c = ',' ∨ c = ']' ∨ c = '\x7d') (rest : List Char) :
    Ends (c :: rest) := by
  intro d first
  obtain rfl : c = d := by simpa using first
  exact .inr closes

theorem Ends.behind {space rest : List Char} (spaced : IsSpaced space) (ends : Ends rest) :
    Ends (space ++ rest) := by
  cases space with
  | nil => exact ends
  | cons c space =>
    intro d first
    obtain rfl : c = d := by simpa using first
    exact .inl (spaced c (by simp))

theorem isSpace_of_isDigit {c : Char} (isDigit : c.isDigit = true) : isSpace c = false := by
  by_contra space
  simp only [isSpace, Bool.not_eq_false, Bool.or_eq_true, decide_eq_true_eq] at space
  obtain ((rfl | rfl) | rfl) | rfl := space <;> exact absurd isDigit (by decide)

theorem skipSpace_spaced {space : List Char} (spaced : IsSpaced space) (text : List Char) :
    skipSpace (space ++ text) = skipSpace text :=
  List.dropWhile_append_of_pos spaced

theorem skipSpace_shown {c : Char} (shown : isSpace c = false) (rest : List Char) :
    skipSpace (c :: rest) = c :: rest := by
  simp [skipSpace, shown]

theorem skipSpace_opens {space text : List Char} (spaced : IsSpaced space) (opens : Opens text)
    (rest : List Char) : skipSpace (space ++ (text ++ rest)) = text ++ rest := by
  obtain ⟨c, more, rfl, shown, -⟩ := opens
  rw [skipSpace_spaced spaced, List.cons_append, skipSpace_shown shown]

/-! Lists with commas -/

/-- Texts with a comma in front of each. -/
def afterCommas (texts : List (List Char)) : List Char :=
  texts.flatMap (',' :: ·)

theorem afterCommas_nil : afterCommas [] = [] :=
  rfl

theorem afterCommas_cons (text : List Char) (texts : List (List Char)) :
    afterCommas (text :: texts) = ',' :: (text ++ afterCommas texts) :=
  rfl

theorem commaSeparated_cons (text : List Char) (texts : List (List Char)) :
    commaSeparated (text :: texts) = text ++ afterCommas texts := by
  induction texts generalizing text with
  | nil => simp [commaSeparated, afterCommas]
  | cons next texts ih => simp [commaSeparated, ih, afterCommas_cons]

theorem length_le_afterCommas (texts : List (List Char)) :
    texts.length ≤ (afterCommas texts).length := by
  induction texts with
  | nil => simp
  | cons text texts ih =>
    rw [afterCommas_cons]
    simp only [List.length_cons, List.length_append]
    omega

theorem ends_afterCommas (texts : List (List Char)) {rest : List Char} (ends : Ends rest) :
    Ends (afterCommas texts ++ rest) := by
  cases texts with
  | nil => exact ends
  | cons text texts => exact ends_cons (.inl rfl) _

/-! Typed readers -/

section

variable {α : Type}

/-- The reader gives `value` for `text`, wherever the text stands. -/
structure ReadsAs (read : List Char → Except Problem (α × List Char)) (text : List Char)
    (value : α) : Prop where
  opens : Opens text
  reads : ∀ space rest, IsSpaced space → Ends rest →
    read (space ++ (text ++ rest)) = .ok (value, rest)

theorem ReadsAs.bare {read : List Char → Except Problem (α × List Char)} {text : List Char}
    {value : α} (reads : ReadsAs read text value) {rest : List Char} (ends : Ends rest) :
    read (text ++ rest) = .ok (value, rest) :=
  reads.reads [] rest isSpaced_nil ends

theorem readString_render (text : String) :
    ReadsAs readString (Value.string text).render text where
  opens := ⟨'\x22', _, rfl, by decide, by decide, by decide⟩
  reads := by
    intro space rest spaced ends
    have body := (spells_escape text.toList).string rest
    change readString (space ++ (quote text.toList ++ rest)) = _
    rw [readString, skipSpace_spaced spaced, quote, List.cons_append, List.append_assoc,
      skipSpace_shown (by decide)]
    simp only [List.cons_append, List.nil_append, body, bind, Except.bind, pure, Except.pure,
      String.ofList_toList]

theorem readBool_render (value : Bool) : ReadsAs readBool (Value.bool value).render value := by
  cases value with
  | false =>
    refine ⟨⟨'f', _, rfl, by decide, by decide, by decide⟩, fun space rest spaced ends => ?_⟩
    rw [readBool, skipSpace_spaced spaced]
    rfl
  | true =>
    refine ⟨⟨'t', _, rfl, by decide, by decide, by decide⟩, fun space rest spaced ends => ?_⟩
    rw [readBool, skipSpace_spaced spaced]
    rfl

theorem nextItem_first {text : List Char} (opens : Opens text) (rest : List Char) :
    nextItem true (text ++ rest) = .ok (.item (text ++ rest)) := by
  obtain ⟨c, more, rfl, shown, noComma, noClose⟩ := opens
  rw [nextItem, List.cons_append, skipSpace_shown shown]
  simp [noComma, noClose]

theorem nextItem_later {text : List Char} (opens : Opens text) (rest : List Char) :
    nextItem false (',' :: (text ++ rest)) = .ok (.item (text ++ rest)) := by
  obtain ⟨c, more, rfl, shown, noComma, noClose⟩ := opens
  rw [nextItem, skipSpace_shown (by decide)]
  simp [skipSpace_shown shown, noClose]

theorem nextItem_close (opened : Bool) (rest : List Char) :
    nextItem opened (']' :: rest) = .ok (.done rest) := by
  rw [nextItem, skipSpace_shown (by decide)]
  rfl

variable {item : List Char → Except Problem (α × List Char)} {texts : List (List Char)}
  {values : List α}

theorem items_later (all : List.Forall₂ (ReadsAs item) texts values) (rest : List Char) :
    ∀ fuel, texts.length < fuel →
      items item fuel false (afterCommas texts ++ ']' :: rest) = .ok (values, rest) := by
  -- by induction over the items, each behind its comma; the fuel is counted in items
  induction all with
  | nil =>
    intro fuel enough
    cases fuel with
    | zero => omega
    | succ fuel =>
      change items item (fuel + 1) false (']' :: rest) = _
      rw [items, nextItem_close]
      rfl
  | @cons text value texts values first _ ih =>
    intro fuel enough
    rw [List.length_cons] at enough
    cases fuel with
    | zero => omega
    | succ fuel =>
      have ends := ends_afterCommas texts (ends_cons (c := ']') (by simp) rest)
      rw [afterCommas_cons, List.cons_append, List.append_assoc, items, nextItem_later first.opens]
      simp only [bind, Except.bind, first.bare ends, ih fuel (by omega), pure, Except.pure]

/-- An array is read item by item. -/
theorem readList_commaSeparated (all : List.Forall₂ (ReadsAs item) texts values) :
    ReadsAs (readList item) ('[' :: (commaSeparated texts ++ [']'])) values where
  opens := ⟨'[', _, rfl, by decide, by decide, by decide⟩
  reads := by
    intro space rest spaced _
    rw [readList, skipSpace_spaced spaced, List.cons_append, skipSpace_shown (by decide),
      List.append_assoc, List.singleton_append]
    cases all with
    | nil =>
      change items item _ true (']' :: rest) = _
      rw [items, nextItem_close]
      rfl
    | @cons text value texts values first later =>
      have ends := ends_afterCommas texts (ends_cons (c := ']') (by simp) rest)
      -- the length of the text is fuel enough for its items
      have length := length_le_afterCommas texts
      rw [commaSeparated_cons, List.append_assoc]
      change items item _ true _ = _
      rw [items, nextItem_first first.opens]
      simp only [bind, Except.bind, first.bare ends]
      rw [items_later later rest _ (by
        obtain ⟨c, more, rfl, -⟩ := first.opens
        simp only [List.length_append, List.length_cons]
        omega)]
      rfl

end

/-! Objects -/

/-- One member of an object as it is written, with the space between its parts. -/
structure Member where
  before : List Char
  name : List Char
  behindName : List Char
  beforeValue : List Char
  value : List Char
  behind : List Char

namespace Member

def text (member : Member) : List Char :=
  member.before ++ '\x22' :: (member.name ++ '\x22' :: (member.behindName ++ ':' ::
    (member.beforeValue ++ (member.value ++ member.behind))))

/-- Between the parts of the member there is only space. -/
structure Spaced (member : Member) : Prop where
  before : IsSpaced member.before
  behindName : IsSpaced member.behindName
  beforeValue : IsSpaced member.beforeValue
  behind : IsSpaced member.behind

/-- The member with a name and the text of a value, without space. -/
def compact (name : String) (value : List Char) : Member :=
  ⟨[], name.toList.flatMap escape, [], [], value, []⟩

theorem spaced_compact (name : String) (value : List Char) : (compact name value).Spaced :=
  ⟨isSpaced_nil, isSpaced_nil, isSpaced_nil, isSpaced_nil⟩

/-- Behind the space in front of a member its name opens. -/
theorem Spaced.skipSpace_text {member : Member} (spaced : member.Spaced) (rest : List Char) :
    skipSpace (member.text ++ rest) = '\x22' :: (member.name ++ '\x22' :: (member.behindName ++
      ':' :: (member.beforeValue ++ (member.value ++ (member.behind ++ rest))))) := by
  rw [text, List.append_assoc, skipSpace_spaced spaced.before, List.cons_append,
    skipSpace_shown (by decide)]
  simp

theorem spells_compact (name : String) (value : List Char) :
    Spells (compact name value).name name.toList :=
  spells_escape name.toList

end Member

theorem renderFields_eq (fields : List (String × Value)) :
    renderFields fields
      = (fields.map fun field => Member.compact field.1 field.2.render).map Member.text := by
  induction fields with
  | nil => rfl
  | cons field fields ih =>
    change (quote field.1.toList ++ ':' :: field.2.render) :: renderFields fields = _
    rw [ih]
    simp [Member.text, Member.compact, quote]

theorem render_object (fields : List (String × Value)) :
    (Value.object fields).render = '\x7b' :: (commaSeparated
      ((fields.map fun field => Member.compact field.1 field.2.render).map Member.text)
        ++ ['\x7d']) := by
  rw [← renderFields_eq]
  rfl

theorem renderItems_eq (items : List Value) : renderItems items = items.map Value.render := by
  induction items with
  | nil => rfl
  | cons item items ih => exact congrArg (item.render :: ·) ih

theorem render_array {α : Type} (values : List α) (write : α → Value) :
    (Value.array (values.map write)).render
      = '[' :: (commaSeparated (values.map fun value => (write value).render) ++ [']']) := by
  have items := renderItems_eq (values.map write)
  rw [List.map_map] at items
  exact congrArg (fun texts => '[' :: (commaSeparated texts ++ [']'])) items

theorem readStrings_render (texts : List String) :
    ReadsAs (readList readString) (Value.array (texts.map .string)).render texts := by
  rw [render_array]
  apply readList_commaSeparated
  rw [List.forall₂_map_left_iff, List.forall₂_same]
  exact fun text _ => readString_render text

theorem colon_spaced {space : List Char} (spaced : IsSpaced space) (rest : List Char) :
    colon (space ++ ':' :: rest) = .ok rest := by
  rw [colon, skipSpace_spaced spaced, skipSpace_shown (by decide)]
  rfl

section

variable {α : Type} {field : α → String → List Char → Except Problem (α × List Char)}

/-- The member takes the reader of fields from one record to another. -/
structure Fills (field : α → String → List Char → Except Problem (α × List Char)) (before : α)
    (member : Member) (after : α) : Prop where
  spaced : member.Spaced
  reads : ∃ name : String, Spells member.name name.toList ∧ ∀ rest, Ends rest →
    field before name (member.behindName ++ ':' :: (member.beforeValue ++ (member.value ++ rest)))
      = .ok (after, rest)

/-- The members, one after the other, take the reader of fields from one record to another. -/
inductive FillsAll (field : α → String → List Char → Except Problem (α × List Char)) :
    α → List Member → α → Prop where
  | nil {record : α} : FillsAll field record [] record
  | cons {before between after : α} {member : Member} {members : List Member} :
    Fills field before member between → FillsAll field between members after →
      FillsAll field before (member :: members) after

theorem FillsAll.single {before after : α} {member : Member}
    (fills : Fills field before member after) : FillsAll field before [member] after :=
  .cons fills .nil

theorem FillsAll.append {before between after : α} {front back : List Member}
    (first : FillsAll field before front between) (second : FillsAll field between back after) :
    FillsAll field before (front ++ back) after := by
  induction first with
  | nil => exact second
  | cons fills _ ih => exact .cons fills (ih second)

theorem fieldName_close {gap : List Char} (spaced : IsSpaced gap) (opened : Bool)
    (rest : List Char) :
    fieldName opened (gap ++ '\x7d' :: rest) = .ok (none, rest) := by
  rw [fieldName, skipSpace_spaced spaced, skipSpace_shown (by decide)]
  rfl

variable {before after : α} {member : Member}

theorem fieldName_first (spaced : member.Spaced) {name : String}
    (spells : Spells member.name name.toList) (rest : List Char) :
    fieldName true (member.text ++ rest) = .ok (some name,
      member.behindName ++ ':' :: (member.beforeValue ++ (member.value ++ (member.behind ++ rest))))
      := by
  rw [fieldName, spaced.skipSpace_text]
  simp [spells.string, bind, Except.bind, pure, Except.pure]

theorem fieldName_later (spaced : member.Spaced) {name : String}
    (spells : Spells member.name name.toList) {space : List Char} (gap : IsSpaced space)
    (rest : List Char) :
    fieldName false (space ++ ',' :: (member.text ++ rest)) = .ok (some name,
      member.behindName ++ ':' :: (member.beforeValue ++ (member.value ++ (member.behind ++ rest))))
      := by
  rw [fieldName, skipSpace_spaced gap, skipSpace_shown (by decide)]
  simp only [Bool.false_eq_true, ↓reduceIte, spaced.skipSpace_text]
  simp [spells.string, bind, Except.bind, pure, Except.pure]

variable {members : List Member} {gap : List Char}

theorem fields_later (all : FillsAll field before members after) (gapSpaced : IsSpaced gap)
    (rest : List Char) :
    ∀ fuel space, IsSpaced space → members.length < fuel →
      fields field fuel false before
        (space ++ (afterCommas (members.map Member.text) ++ (gap ++ '\x7d' :: rest)))
        = .ok (after, rest) := by
  induction all with
  | nil =>
    intro fuel space spaced enough
    cases fuel with
    | zero => omega
    | succ fuel =>
      -- the space behind the last member and the gap are skipped as one
      have closes := fieldName_close gapSpaced false rest
      rw [fieldName, ← skipSpace_spaced spaced, ← fieldName] at closes
      change fields field (fuel + 1) false _ (space ++ (gap ++ '\x7d' :: rest)) = _
      rw [fields, closes]
      rfl
  | @cons before between after member members fills _ ih =>
    intro fuel space spaced enough
    obtain ⟨name, spells, reads⟩ := fills.reads
    let more := afterCommas (members.map Member.text) ++ (gap ++ '\x7d' :: rest)
    have ends : Ends (member.behind ++ more) :=
      Ends.behind fills.spaced.behind (ends_afterCommas _
        (Ends.behind gapSpaced (ends_cons (by simp) rest)))
    rw [List.length_cons] at enough
    cases fuel with
    | zero => omega
    | succ fuel =>
      have named := fieldName_later fills.spaced spells spaced more
      have later := ih fuel member.behind fills.spaced.behind (by omega)
      rw [List.map_cons, afterCommas_cons, List.cons_append, List.append_assoc, fields, named]
      simp only [bind, Except.bind, reads _ ends]
      exact later

/-- An object is read member by member. -/
theorem fields_commaSeparated (all : FillsAll field before members after)
    (gapSpaced : IsSpaced gap) (rest : List Char) :
    let text := commaSeparated (members.map Member.text) ++ (gap ++ '\x7d' :: rest)
    fields field (text.length + 1) true before text = .ok (after, rest) := by
  intro text
  cases all with
  | nil =>
    have closed : text = gap ++ '\x7d' :: rest := rfl
    rw [fields, closed, fieldName_close gapSpaced]
    rfl
  | @cons _ between _ member members fills all =>
    obtain ⟨name, spells, reads⟩ := fills.reads
    let more := afterCommas (members.map Member.text) ++ (gap ++ '\x7d' :: rest)
    have ends : Ends (member.behind ++ more) :=
      Ends.behind fills.spaced.behind (ends_afterCommas _
        (Ends.behind gapSpaced (ends_cons (by simp) rest)))
    have opened : text = member.text ++ more := by
      rw [← List.append_assoc, ← commaSeparated_cons]
      rfl
    -- every member takes a character at least, so the length of the text is fuel enough
    have enough : members.length < text.length := by
      have length := length_le_afterCommas (members.map Member.text)
      rw [List.length_map] at length
      simp only [opened, more, List.length_append, List.length_cons]
      omega
    calc fields field (text.length + 1) true before text
        = fields field (text.length + 1) true before (member.text ++ more) :=
          congrArg (fields field (text.length + 1) true before) opened
      _ = fields field text.length false between (member.behind ++ more) := by
          rw [fields, fieldName_first fills.spaced spells more]
          simp only [bind, Except.bind, reads _ ends]
      _ = .ok (after, rest) :=
          fields_later all gapSpaced rest text.length member.behind fills.spaced.behind enough

end

end Concord.Json
