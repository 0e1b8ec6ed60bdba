import Concord.Proofs.Assignments
import Concord.Proofs.PatternLeaves

/-!
Re-export lists. An entry of a list is a name, perhaps with an alias, or a type, or nothing. Cut at
its commas, a list gives back its entries, and the words of an entry tell what it exports: a name
under its alias, on the line where the name stands, and nothing for a type. The module named behind
the list is the origin of each of them.
-/
namespace Concord.Export

open Concord.Scan Concord.Text

/-! Syntax -/

/-- The name behind an `as`, with the blanks around the keyword. -/
structure Alias where
  before : Gap
  after : Gap
  name : Name
  spaced : before.text ≠ [] ∧ after.text ≠ [] := by decide +kernel

def Alias.text? : Option Alias → List Char
  | none => []
  | some a => a.before.text ++ ("as".toList ++ (a.after.text ++ a.name.text))

/-- The name under which `target` is exported. -/
def Alias.exported (target : Name) : Option Alias → Name
  | none => target
  | some a => a.name

/-- An entry of a list, with the blanks around and in it. -/
inductive ListEntry where
  | value (lead : Gap) (target : Name) (given : Option Alias) (trail : Gap)
      (named : target.text ≠ "type".toList)
  | typeOnly (lead inner : Gap) (name : Name) (given : Option Alias) (trail : Gap)
      (spaced : inner.text ≠ [])
  | empty (gap : Gap)

namespace ListEntry

def text : ListEntry → List Char
  | value lead target given trail _ =>
    lead.text ++ (target.text ++ (Alias.text? given ++ trail.text))
  | typeOnly lead inner name given trail _ =>
    lead.text ++ ("type".toList ++ (inner.text ++
      (name.text ++ (Alias.text? given ++ trail.text))))
  | empty gap => gap.text

/-- What an entry that starts on `line` exports. -/
def export? (line : Nat) (origin : Option (List Char)) : ListEntry → Option Export
  | value lead target given _ _ => some
    { name := String.ofList (Alias.exported target given).text
      kind := .reExport
      line := line + lineBreaks lead.text
      target := some (String.ofList target.text)
      origin := origin.map String.ofList }
  | typeOnly .. => none
  | empty _ => none

/-- What entries with commas between them export, from `line` on. -/
def exportsFrom (line : Nat) (origin : Option (List Char)) : List ListEntry → List Export
  | [] => []
  | e :: more =>
    (e.export? line origin).toList ++ exportsFrom (line + lineBreaks e.text) origin more

end ListEntry

/-- The module that a list is taken from, with the blanks behind the keyword and the module. -/
structure Origin where
  module : Literal
  afterFrom : Gap
  afterModule : Gap

def Origin.text? : Option Origin → List Char
  | none => []
  | some o => "from".toList ++ (o.afterFrom.text ++
      (o.module.quote :: (o.module.text ++ [o.module.quote]) ++ o.afterModule.text))

/-- A re-export list, up to its `;`. -/
structure ReexportList where
  entries : List ListEntry
  origin : Option Origin
  afterExport : Gap
  afterList : Gap

namespace ReexportList

variable (l : ReexportList)

/-- The group of the list. -/
def group : List Char :=
  '\x7b' :: (joined (l.entries.map ListEntry.text) ++ ['\x7d'])

def text : List Char :=
  "export".toList ++ (l.afterExport.text ++ (l.group ++ (l.afterList.text ++
    (Origin.text? l.origin ++ [';']))))

def exports : List Export :=
  ListEntry.exportsFrom (1 + lineBreaks l.afterExport.text)
    (l.origin.map fun o => o.module.text) l.entries

end ReexportList

/-! Words -/

theorem words_cons (x : Char) (rest : List Char) :
    words (x :: rest) =
      if isBlank x then words rest
      else
        match rest, words rest with
        | y :: _, word :: more => if isBlank y then [x] :: word :: more else (x :: word) :: more
        | _, more => [x] :: more := by
  rfl

theorem words_gap (gap : Gap) (text : List Char) : words (gap.text ++ text) = words text := by
  obtain ⟨blanks, blank⟩ := gap
  induction blanks with
  | nil => rfl
  | cons x blanks ih =>
    rw [List.all_cons, Bool.and_eq_true] at blank
    have later := ih blank.2
    rw [List.cons_append, words_cons, if_pos (isBlank_of_isAsciiBlank blank.1)]
    exact later

theorem words_gap_alone (gap : Gap) : words gap.text = [] := by
  have none := words_gap gap []
  rwa [List.append_nil] at none

/-- A word in front of a blank, or at the end, is one of the words. -/
theorem words_word {word rest : List Char} (shown : word ≠ [])
    (dark : ∀ x ∈ word, isBlank x = false) (ends : ∀ x ∈ rest.head?, isBlank x = true) :
    words (word ++ rest) = word :: words rest := by
  induction word with
  | nil => exact absurd rfl shown
  | cons x word ih =>
    obtain ⟨first, others⟩ := List.forall_mem_cons.mp dark
    rw [List.cons_append, words_cons, if_neg (by simp [first])]
    cases word with
    | nil =>
      cases rest with
      | nil => rfl
      | cons y rest =>
        -- the blank ends the word, whatever the words behind it are
        have blank : isBlank y = true := ends y rfl
        rw [List.nil_append]
        cases words (y :: rest) <;> simp [blank]
    | cons y word =>
      have inside : isBlank y = false := others y List.mem_cons_self
      rw [ih (by simp) others]
      simp [inside]

theorem words_name (name : Name) {rest : List Char}
    (ends : ∀ x ∈ rest.head?, isAsciiBlank x = true) :
    words (name.text ++ rest) = name.text :: words rest := by
  refine words_word ?_ (fun x member => isBlank_of_isPlainPart (name.isPlainPart_of_mem member))
    fun x first => isBlank_of_isAsciiBlank (ends x first)
  intro none
  have plain := name.plain
  rw [none] at plain
  cases plain

theorem Gap.starts (gap : Gap) (spaced : gap.text ≠ []) (text : List Char) :
    ∀ x ∈ (gap.text ++ text).head?, isAsciiBlank x = true := by
  intro x first
  rw [List.head?_append_of_ne_nil _ spaced] at first
  exact List.all_eq_true.mp gap.blank x (List.mem_of_mem_head? first)

theorem Gap.starts_alone (gap : Gap) : ∀ x ∈ gap.text.head?, isAsciiBlank x = true := by
  intro x first
  exact List.all_eq_true.mp gap.blank x (List.mem_of_mem_head? first)

/-! Entries -/

/-- The keyword between a name and its alias. -/
def asKeyword : Name where
  text := "as".toList

/-- The keyword in front of a type. -/
def typeKeyword : Name where
  text := "type".toList

/-- A name stands in front of blanks, whatever follows them. -/
theorem Name.legible_starts (name : Name) {flag : Bool} {text : List Char}
    (legible : ∀ flag, Legible flag [','] text)
    (starts : ∀ x ∈ text.head?, isAsciiBlank x = true) : Legible flag [','] (name.text ++ text) :=
  .append (name.legible.mono (by decide)) legible
    fun x first => isStopper_of_isAsciiBlank (starts x first)

namespace Alias

variable (given : Option Alias) (trail : Gap)

theorem starts : ∀ x ∈ (text? given ++ trail.text).head?, isAsciiBlank x = true := by
  cases given with
  | none => exact trail.starts_alone
  | some a =>
    rw [text?, List.append_assoc]
    exact a.before.starts a.spaced.1 _

/-- An alias is two words, and none is no word. -/
theorem words_text? : words (text? given ++ trail.text) =
    match given with
    | none => []
    | some a => [asKeyword.text, a.name.text] := by
  cases given with
  | none => exact words_gap_alone trail
  | some a =>
    have behind : words (asKeyword.text ++ (a.after.text ++ (a.name.text ++ trail.text))) =
        [asKeyword.text, a.name.text] := by
      rw [words_name asKeyword (a.after.starts a.spaced.2 _), words_gap,
        words_name a.name trail.starts_alone, words_gap_alone]
    rw [text?, List.append_assoc, List.append_assoc, List.append_assoc, words_gap]
    exact behind

theorem legible {flag : Bool} : Legible flag [','] (text? given ++ trail.text) := by
  cases given with
  | none => exact trail.legible
  | some a =>
    have behind {flag : Bool} :
        Legible flag [','] (asKeyword.text ++ (a.after.text ++ (a.name.text ++ trail.text))) := by
      refine asKeyword.legible_starts (fun flag => ?_) (a.after.starts a.spaced.2 _)
      exact .behind_gap a.after
        (a.name.legible_starts (fun flag => trail.legible) trail.starts_alone)
    rw [text?, List.append_assoc, List.append_assoc, List.append_assoc]
    exact .behind_gap a.before behind

end Alias

namespace ListEntry

variable (e : ListEntry)

/-- Every entry can be read, and no comma stands in it. -/
theorem legible {flag : Bool} : Legible flag [','] e.text := by
  have named (name : Name) (given : Option Alias) (trail : Gap) {flag : Bool} :
      Legible flag [','] (name.text ++ (Alias.text? given ++ trail.text)) :=
    name.legible_starts (fun flag => Alias.legible given trail) (Alias.starts given trail)
  cases e with
  | value lead target given trail _ => exact .behind_gap lead (named target given trail)
  | typeOnly lead inner name given trail spaced =>
    refine .behind_gap lead (typeKeyword.legible_starts (fun flag => ?_) (inner.starts spaced _))
    exact .behind_gap inner (named name given trail)
  | empty gap => exact gap.legible

/-- An entry exports a name that stands behind the blanks at its start, or nothing. -/
theorem listItem?_text (line : Nat) (origin : Option (List Char)) :
    ((listItem? e.text).map fun (target, name) =>
      ({ name := String.ofList name, kind := .reExport
         line := line + lineBreaks (indent e.text)
         target := some (String.ofList target)
         origin := origin.map String.ofList } : Export)) = e.export? line origin := by
  -- the words of the entry are those of its names; blanks of any kind stand between them
  cases e with
  | value lead target given trail named =>
    have read : words (value lead target given trail named).text =
        target.text :: words (Alias.text? given ++ trail.text) := by
      rw [text, words_gap, words_name target (Alias.starts given trail)]
    have indented : indent (value lead target given trail named).text = lead.text :=
      lead.indent (shown_of_startsEntry (startsEntry_append target.startsEntry _))
    rw [listItem?, read, Alias.words_text?, indented]
    cases given with
    | none =>
      simp only [if_neg named]
      rfl
    | some a =>
      simp only [named, ne_eq, not_false_eq_true, decide_true, Bool.true_and]
      rfl
  | typeOnly lead inner name given trail spaced =>
    have read : words (typeOnly lead inner name given trail spaced).text =
        typeKeyword.text :: name.text :: words (Alias.text? given ++ trail.text) := by
      rw [text, words_gap]
      show words (typeKeyword.text ++ _) = _
      rw [words_name typeKeyword (inner.starts spaced _), words_gap,
        words_name name (Alias.starts given trail)]
    rw [listItem?, read, Alias.words_text?]
    cases given <;> rfl
  | empty gap =>
    rw [listItem?, text, words_gap_alone]
    rfl

end ListEntry

/-! Lists -/

/-- What a piece of a list exports. -/
def pieceExport? (line : Nat) (body : List Char) (origin : Option (List Char)) (piece : Piece) :
    Option Export :=
  (listItem? piece.text).map fun (target, name) =>
    { name := String.ofList name
      kind := .reExport
      line := line + breaksBefore body (piece.offset + byteSize (indent piece.text))
      target := some (String.ofList target)
      origin := origin.map String.ofList }

/-- Wherever it stands in a list, an entry exports what it exports on its own line. -/
theorem ListEntry.pieceExport?_text (e : ListEntry) (line : Nat) (origin : Option (List Char))
    (front back : List Char) :
    pieceExport? line (front ++ (e.text ++ back)) origin ⟨byteSize front, e.text⟩ =
      e.export? (line + lineBreaks front) origin := by
  rw [pieceExport?, breaksBefore_indent, ← Nat.add_assoc, e.listItem?_text]

theorem filterMap_entries (entries : List ListEntry) (line : Nat) (origin : Option (List Char))
    (front : List Char) :
    (piecesAt (byteSize front) (entries.map ListEntry.text)).filterMap
        (pieceExport? line (front ++ joined (entries.map ListEntry.text)) origin) =
      ListEntry.exportsFrom (line + lineBreaks front) origin entries := by
  -- the entries in front of the current one, with their commas, are part of `front`
  induction entries generalizing front with
  | nil => rfl
  | cons e more ih =>
    cases more with
    | nil =>
      have one := e.pieceExport?_text line origin front []
      rw [List.append_nil] at one
      simp only [List.map_cons, List.map_nil, joined, piecesAt, List.filterMap_cons, one,
        ListEntry.exportsFrom, List.filterMap_nil, List.append_nil]
      cases e.export? (line + lineBreaks front) origin <;> rfl
    | cons next more =>
      have later := ih (front ++ (e.text ++ [',']))
      have place : byteSize (front ++ (e.text ++ [','])) =
          byteSize front + byteSize e.text + 1 := by
        rw [byteSize_append, byteSize_append, ← Nat.add_assoc]
        rfl
      have breaks : lineBreaks (front ++ (e.text ++ [','])) =
          lineBreaks front + lineBreaks e.text := by
        simp [lineBreaks]
      have one := e.pieceExport?_text line origin front
        (',' :: joined ((next :: more).map ListEntry.text))
      have whole : front ++ joined ((e :: next :: more).map ListEntry.text) =
          (front ++ (e.text ++ [','])) ++ joined ((next :: more).map ListEntry.text) := by
        simp [joined]
      rw [place, breaks, ← whole, ← Nat.add_assoc] at later
      have whole : front ++ joined ((e :: next :: more).map ListEntry.text) =
          front ++ (e.text ++ ',' :: joined ((next :: more).map ListEntry.text)) := by
        simp [joined]
      rw [← whole] at one
      rw [List.map_cons, List.map_cons, piecesAt, List.filterMap_cons, ListEntry.exportsFrom]
      simp only [List.map_cons] at one later
      rw [one, later]
      cases e.export? (line + lineBreaks front) origin <;> rfl

theorem ListEntry.legible_texts (entries : List ListEntry) :
    ∀ text ∈ entries.map ListEntry.text, ∀ flag, Legible flag [','] text := by
  intro text member flag
  obtain ⟨e, -, rfl⟩ := List.mem_map.mp member
  exact e.legible

/-- The body of a list exports its entries. -/
theorem listExports_entries (entries : List ListEntry) (line : Nat)
    (origin : Option (List Char)) :
    listExports line (joined (entries.map ListEntry.text)) origin =
      .ok (ListEntry.exportsFrom line origin entries) := by
  obtain ⟨items, last, joins, reads, pieces⟩ :=
    @reads_joined _ true [] (ListEntry.legible_texts entries) (by simp)
  have cut := reads.split_source (show isSeparator ',' = true by decide)
  rw [← joins, pieces] at cut
  have found := filterMap_entries entries line origin []
  rw [listExports, cut]
  exact congrArg Except.ok found

/-- A list is one token. -/
theorem ReexportList.isToken_group (l : ReexportList) {rest : List Char} (flag : Bool) :
    ∃ last, IsToken flag l.group rest last := by
  obtain ⟨items, last, joins, reads, -⟩ := @reads_joined _ true (Bracket.curly.closer :: rest)
    (ListEntry.legible_texts l.entries) (stops_cons (isStopper_closer _) _)
  rw [group, joins]
  exact ⟨_, reads.isToken flag⟩

theorem ReexportList.interior_group (l : ReexportList) {lead : List Char} {line : Nat} :
    Token.interior ⟨lead, l.group, line⟩ = joined (l.entries.map ListEntry.text) := by
  simp [Token.interior, group]

/-! Origins -/

theorem originClause?_literal (literal : Literal) {t u : Token} (rest : List Token)
    (named : t.text = "from".toList)
    (shown : u.text = literal.quote :: (literal.text ++ [literal.quote])) :
    originClause? (t :: u :: rest) = some (literal.text, rest) := by
  have isFrom : t.isWord "from" = true := decide_eq_true named
  have first : u.first = literal.quote := by rw [Token.first, shown, List.headD_cons]
  have quoted : u.isQuoted = true := by
    rw [Token.isQuoted, first]
    rcases literal.quotes with same | same <;> rw [same] <;> decide
  have inner : dropLastMark? literal.quote (literal.text ++ [literal.quote]) = some literal.text :=
    dropLastMark?_eq_some_iff.mpr rfl
  simp only [originClause?, isFrom, quoted, first, shown, List.tail_cons, inner]
  rfl

/-- The module behind a list is read as the origin, and nothing behind it is exported. -/
theorem Origin.reads (origin : Option Origin) :
    ∃ items, text? origin ++ [';'] = Item.source items ∧ Readable items [] ∧
      ∀ (lead : List Char) (line : Nat), ∃ left,
        originClause? (Item.tokens lead line items) =
          origin.map (fun o => (o.module.text, left)) ∧
        (origin = none → left = Item.tokens lead line items) ∧
        ∀ t ∈ left, t.isWord "export" = false := by
  have semi : Readable [.token [';']] [] := .mark (by decide) .nil
  have ends {lead : List Char} {line : Nat} :
      ∀ t ∈ Item.tokens lead line [.token [';']], t.isWord "export" = false := by
    intro t member
    exact isWord_of_semi (by rw [List.mem_singleton.mp member]) (by decide)
  cases origin with
  | none => exact ⟨_, rfl, semi, fun lead line => ⟨_, rfl, fun _ => rfl, ends⟩⟩
  | some o =>
    let literal := o.module.quote :: (o.module.text ++ [o.module.quote])
    have module : Readable (.token literal :: (o.afterModule.items ++ [.token [';']])) [] :=
      .token (fun flag => ⟨_, o.module.isToken flag _⟩) (o.afterModule.readable semi)
    -- the keyword may touch the quote, which is no part of a word
    have quote : ∀ x ∈ (Item.source (.token literal ::
        (o.afterModule.items ++ [.token [';']]))).head?, isWordPart x = false := by
      rintro _ ⟨⟩
      rcases o.module.quotes with same | same <;> rw [same] <;> decide
    refine ⟨_, ?_, Word.readable_gap { text := "from".toList } o.afterFrom (fun _ => quote) module,
      fun lead line => ?_⟩
    · rw [Item.source_cons, Gap.source_items, Item.source_cons, Gap.source_items]
      rw [text?, List.append_assoc, List.append_assoc, List.append_assoc]
      rfl
    · refine ⟨Item.tokens o.afterModule.text (line + lineBreaks o.afterFrom.text +
        lineBreaks literal + lineBreaks o.afterModule.text) [.token [';']], ?_,
        (fun none => by cases none), ends⟩
      have unbroken : lineBreaks "from".toList = 0 := rfl
      rw [Item.tokens, Gap.tokens_items, Item.tokens, Gap.tokens_items, unbroken]
      exact originClause?_literal o.module _ rfl rfl

/-! Statements -/

theorem exportClause_list {t : Token} {rest left : List Token} {origin : Option (List Char)}
    {found : List Export} (group : t.group? = some .curly)
    (clause : originClause? rest = origin.map fun module => (module, left))
    (none : origin = none → left = rest)
    (read : listExports t.line t.interior origin = .ok found) :
    exportClause .finished (t :: rest) = .ok (found, left) := by
  simp only [exportClause]
  rw [if_pos group, clause]
  cases origin with
  | none =>
    rw [none rfl]
    simp only [Option.map_none, read]
    rfl
  | some module =>
    simp only [Option.map_some, read]
    rfl

/-- A re-export list exports the names of its entries, each under its alias, and nothing else. -/
theorem ReexportList.extract_reexports (l : ReexportList) : extract l.text = .ok l.exports := by
  obtain ⟨items, source, readable, reads⟩ := Origin.reads l.origin
  have group : Readable (.token l.group :: (l.afterList.items ++ items)) [] :=
    .token l.isToken_group (l.afterList.readable readable)
  have text : l.text = "export".toList ++ (l.afterExport.text ++
      Item.source (.token l.group :: (l.afterList.items ++ items))) := by
    rw [Item.source_cons, Gap.source_items, ← source]
    rfl
  obtain ⟨left, clause, none, done⟩ := reads l.afterList.text (1 + lineBreaks l.afterExport.text +
    lineBreaks l.group + lineBreaks l.afterList.text)
  rw [text]
  -- the keyword may touch the brace, which is no part of a word
  refine extract_of_clause (fun _ => by rintro _ ⟨⟩; decide) group ?_ done
  rw [Item.tokens, Gap.tokens_items, List.nil_append]
  refine @exportClause_list _ _ _ (l.origin.map fun o => o.module.text) _ rfl ?_ ?_ ?_
  · rw [clause, Option.map_map]
    rfl
  · simpa using none
  · rw [l.interior_group, listExports_entries]
    rfl

/-- Names with and without an alias, one of them called like the keyword, types, and entries without
a name, over several lines. -/
def severalEntries : ReexportList where
  afterExport := .space
  entries :=
    [.value .space { text := "a".toList } none .empty (by decide),
      .typeOnly { text := "\n\t".toList } .space { text := "T".toList }
        (some { before := .space, after := .space, name := { text := "U".toList } }) .empty
        Gap.space_ne_nil,
      .empty .space,
      .value { text := "\n\n  ".toList } { text := "as".toList }
        (some
          { before := { text := "\n".toList }, after := .space, name := { text := "$b".toList } })
        .space (by decide),
      .typeOnly .space .space { text := "as".toList } none .empty Gap.space_ne_nil,
      .value .empty { text := "c".toList }
        (some { before := .space, after := .space, name := { text := "type".toList } }) .empty
        (by decide),
      .empty { text := "\n".toList }]
  afterList := .space
  origin := some
    { module := { quote := '\x22', text := "./m".toList },
      afterFrom := .space, afterModule := .empty }

theorem extract_reexports_severalEntries :
    severalEntries.text = ("export \x7b a,\n\ttype T as U, ,\n\n  as\nas $b , type as,c as type,\n" ++
      "\x7d from \"./m\";").toList ∧
    extract severalEntries.text = .ok
      [{ name := "a", kind := .reExport, line := 1, target := some "a", origin := some "./m" },
        { name := "$b", kind := .reExport, line := 4, target := some "as", origin := some "./m" },
        { name := "type", kind := .reExport, line := 5, target := some "c"
          origin := some "./m" }] := by
  refine ⟨by decide +kernel, severalEntries.extract_reexports.trans ?_⟩
  decide +kernel

end Concord.Export
