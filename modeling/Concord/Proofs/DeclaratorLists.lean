import Concord.Proofs.Assignments

/-!
Lists of declarators. A declarator is a name with an initializer and perhaps a type between them. A
list of them is read one by one, because each initializer ends at the comma behind it and at no
earlier one, and nothing of it is left open for the next name. So the list exports its names, in
their order and on their lines, each with its own initializer.
-/
namespace Concord.Export

open Concord.Scan Concord.Text

/-! Syntax -/

/-- A name and what is assigned to it, with the blanks around the name. The `=` is not doubled. -/
structure Declarator extends Assignment where
  before : Gap
  name : Word
  afterName : Gap
  single : afterEquals.text ≠ [] ∨ value.text.head? ≠ some '=' := by decide +kernel

def Declarator.text (d : Declarator) : List Char :=
  d.before.text ++ (d.name.text ++ (d.afterName.text ++ d.toAssignment.text))

/-- What a declarator exports if its name stands on `line`. -/
def Declarator.exported (d : Declarator) (line : Nat) : Export where
  name := String.ofList d.name.text
  kind := if isFunction d.value.text then .function else .value
  line := line
  source := some (String.ofList d.value.text)

/-- What declarators with commas between them export, from `line` on. -/
def Declarator.exportsFrom (line : Nat) : List Declarator → List Export
  | [] => []
  | d :: more =>
    d.exported (line + lineBreaks d.before.text) ::
      Declarator.exportsFrom (line + lineBreaks d.text) more

/-- An exported list of declarators, up to its `;`. -/
structure DeclaratorList where
  keyword : Word
  first : Declarator
  more : List Declarator
  afterExport : Gap
  declares : keyword.text ∈ ["const".toList, "let".toList, "var".toList] := by decide +kernel
  spaced : afterExport.text ≠ [] := by decide +kernel
  apart : first.before.text ≠ [] := by decide +kernel

namespace DeclaratorList

variable (l : DeclaratorList)

def declarators : List Declarator :=
  l.first :: l.more

def text : List Char :=
  "export".toList ++ (l.afterExport.text ++ (l.keyword.text ++
    (joined (l.declarators.map Declarator.text) ++ [';'])))

def exports : List Export :=
  Declarator.exportsFrom (1 + lineBreaks l.afterExport.text) l.declarators

end DeclaratorList

/-! One declarator -/

namespace Declarator

variable (d : Declarator)

/-- A name is exported with the initializer that is read behind it. -/
theorem declarator_name {t : Token} {rest tokens later : List Token} {typed : Bool}
    (named : t.text = d.name.text) (unmarked : skipMark '!' rest = rest)
    (clause : typeClause .finished rest = .ok (typed, tokens))
    (starts : startsInitializer tokens = true)
    (read : initializer .finished tokens = .ok (some d.value.text, later)) :
    declarator .finished t rest = .ok (some ([d.exported t.line], later)) := by
  have noPattern : t.group? = none := d.name.group?_eq named
  have isName : t.word?.isSome = true := by rw [d.name.word?_eq named, Option.isSome_some]
  have found : nameExport .finished t rest = .ok (d.exported t.line, later) := by
    simp only [nameExport, unmarked, clause, read, starts, named, bind, Except.bind, if_true]
    rfl
  rw [declarator, noPattern, if_neg (by decide), if_pos isName, found]
  rfl

/-- In front of the mark that ends it, a declarator is read as a whole, and the tokens behind the
mark are left. -/
theorem reads {x : Char} {items : List Item} (later : ∃ last, Reads true items [] last)
    (ends : x = ',' ∨ x = ';') :
    ∃ all, d.text ++ x :: Item.source items = Item.source all ∧ Readable all [] ∧
      ∀ (lead : List Char) (down : Nat), ∃ t rest stop,
        Item.tokens lead (1 + down) all = t :: rest ∧
        declarator .finished t rest =
          .ok (some ([d.exported (1 + down + lineBreaks d.before.text)],
            stop :: Item.tokens [] (1 + (down + lineBreaks d.text)) items)) ∧
        stop.text = [x] := by
  obtain ⟨y, inner, opens, source, reads, clauses⟩ := d.toAssignment.reads later ends
  -- the name may touch the `:` or the `=`, which is no part of a word
  have apart : ∀ z ∈ (Item.source (.token [y] :: inner)).head?, isWordPart z = false := by
    rintro _ ⟨⟩
    rcases opens with rfl | rfl <;> decide
  have named := d.name.readable_gap d.afterName (fun _ => apart) reads
  refine ⟨d.before.items ++ .token d.name.text :: (d.afterName.items ++ .token [y] :: inner), ?_,
    d.before.readable named, fun lead down => ?_⟩
  · rw [Gap.source_items, Item.source_cons, Gap.source_items, Item.source_cons, Item.text,
      Item.text, List.singleton_append, ← source]
    simp [text]
  · have breaks : lineBreaks d.text = lineBreaks d.before.text + lineBreaks d.afterName.text +
        lineBreaks d.toAssignment.text := by
      simp only [text, lineBreaks_append, d.name.lineBreaks_text]
      omega
    obtain ⟨tokens, stop, clause, starts, read, ended⟩ := clauses d.afterName.text
      (down + lineBreaks d.before.text + lineBreaks d.afterName.text)
    rw [Gap.tokens_items, Item.tokens, d.name.lineBreaks_text, Gap.tokens_items, Nat.add_zero,
      List.nil_append, breaks]
    simp only [Nat.add_assoc] at clause read ⊢
    refine ⟨_, _, stop, rfl, d.declarator_name rfl ?_ clause (starts d.single) read, ended⟩
    -- neither mark is the `!` of a name without initializer
    rw [Item.tokens, skipMark]
    rcases opens with rfl | rfl <;> rfl

/-- One declarator after the other is read, up to the `;`. -/
theorem reads_list (more : List Declarator) :
    ∃ items, joined ((d :: more).map text) ++ [';'] = Item.source items ∧ Readable items [] ∧
      ∀ (lead : List Char) (down : Nat), ∃ stop,
        declarators .finished (Item.tokens lead (1 + down) items) =
          .ok (Declarator.exportsFrom (1 + down) (d :: more), [stop]) ∧ stop.text = [';'] := by
  -- on the declarators behind the first one, which is read in front of them
  induction more generalizing d with
  | nil =>
    obtain ⟨all, source, readable, read⟩ := d.reads ⟨_, .done⟩ (Or.inr rfl)
    refine ⟨all, source, readable, fun lead down => ?_⟩
    obtain ⟨t, rest, stop, tokens, one, ended⟩ := read lead down
    refine ⟨stop, ?_, ended⟩
    rw [tokens, declarators_cons, one]
    simp [bind, Except.bind, moreDeclarators, is_of_semi ended, Item.tokens, exportsFrom]
  | cons next more ih =>
    obtain ⟨items, source, later, reads⟩ := ih next
    obtain ⟨all, source', readable, read⟩ := d.reads (later true) (Or.inl rfl)
    refine ⟨all, ?_, readable, fun lead down => ?_⟩
    · rw [← source', ← source]
      simp [joined]
    · obtain ⟨t, rest, comma, tokens, one, ended⟩ := read lead down
      obtain ⟨stop, others, last⟩ := reads [] (down + lineBreaks d.text)
      refine ⟨stop, ?_, last⟩
      have isComma : comma.is ',' = true := decide_eq_true ended
      rw [tokens, declarators_cons, one]
      simp only [bind, Except.bind, moreDeclarators, isComma, if_true, others]
      rw [exportsFrom, ← Nat.add_assoc]
      rfl

end Declarator

/-! Statements -/

theorem declares_of_mem {t : Token}
    (declares : t.text ∈ ["const".toList, "let".toList, "var".toList]) :
    (t.isWord "const" || t.isWord "let" || t.isWord "var") = true := by
  simp only [Token.isWord]
  generalize "const".toList = const, "let".toList = letWord, "var".toList = var at declares ⊢
  simpa [or_assoc] using declares

/-- A statement exports what its declarators export, if nothing behind them is exported. -/
theorem extract_of_declarators {keyword : Word} {gap : Gap} {items : List Item}
    {found : List Export} {left : List Token}
    (declares : keyword.text ∈ ["const".toList, "let".toList, "var".toList])
    (spaced : gap.text ≠ []) (apart : ∀ x ∈ (Item.source items).head?, isWordPart x = false)
    (readable : Readable items [])
    (read : declarators .finished (Item.tokens [] (1 + lineBreaks gap.text) items) =
      .ok (found, left)) (done : ∀ t ∈ left, t.isWord "export" = false) :
    extract ("export".toList ++ (gap.text ++ (keyword.text ++ Item.source items))) =
      .ok found := by
  have keyed : Readable (.token keyword.text :: items) [] :=
    keyword.readable (by rwa [List.append_nil]) readable
  refine extract_of_clause (fun none => absurd none spaced) keyed ?_ done
  rw [Item.tokens, keyword.lineBreaks_text, exportClause_declares (declares_of_mem declares)]
  exact read

/-- An exported list of declarators exports each of its names, with its own initializer. -/
theorem DeclaratorList.extract_declarators (l : DeclaratorList) :
    extract l.text = .ok l.exports := by
  obtain ⟨items, source, readable, reads⟩ := l.first.reads_list l.more
  obtain ⟨stop, read, ended⟩ := reads [] (lineBreaks l.afterExport.text)
  -- the first character behind the keyword is a blank
  have front : ∃ behind, Item.source items = l.first.before.text ++ behind := by
    rw [← source]
    cases l.more <;> simp [joined, Declarator.text]
  have apart : ∀ x ∈ (Item.source items).head?, isWordPart x = false := by
    obtain ⟨behind, front⟩ := front
    rw [front, List.head?_append_of_ne_nil _ l.apart]
    intro x first
    exact isWordPart_of_isStopper (l.first.before.stops_alone x first)
  have text : l.text = "export".toList ++ (l.afterExport.text ++
      (l.keyword.text ++ Item.source items)) := by
    rw [← source]
    rfl
  rw [text]
  refine extract_of_declarators l.declares l.spaced apart readable read ?_
  intro t member
  rw [List.mem_singleton.mp member]
  exact isWord_of_semi ended (by decide)

/-- A regular expression and a template with commas and semicolons of their own, an arrow behind a
type with a comma, and a division. -/
def severalNames : DeclaratorList where
  keyword := { text := "let".toList }
  afterExport := .space
  spaced := Gap.space_ne_nil
  apart := Gap.space_ne_nil
  first :=
    { before := .space, name := { text := "re".toList }, afterName := .space
      ascription := none, afterEquals := .space, value := { text := "/[,;]/".toList }
      afterValue := .empty }
  more :=
    [{ before := { text := "\n    ".toList }, name := { text := "half".toList }
       afterName := .empty
       ascription := some
         { before := .space, text := "Of<K, () => V>".toList, after := .space }
       afterEquals := .space, value := { text := "async (x) => x / 2".toList }
       afterValue := .empty },
     { before := { text := "\n    ".toList }, name := { text := "$t".toList }
       afterName := .empty, ascription := none, afterEquals := .empty
       value := { text := "\x60, $\x7bf(1, 2)\x7d;\x60".toList }, afterValue := .space },
     { before := .empty, name := { text := "q".toList }, afterName := .space
       ascription := none, afterEquals := .space, value := { text := "3 / 4".toList }
       afterValue := .empty }]

theorem extract_declarators_severalNames :
    severalNames.text = ("export let re = /[,;]/,\n    half: Of<K, () => V> = async (x) => x / 2,\n" ++
      "    $t=\x60, $\x7bf(1, 2)\x7d;\x60 ,q = 3 / 4;").toList ∧
    extract severalNames.text = .ok
      [{ name := "re", kind := .value, line := 1, source := some "/[,;]/" },
        { name := "half", kind := .function, line := 2, source := some "async (x) => x / 2" },
        { name := "$t", kind := .value, line := 3
          source := some "\x60, $\x7bf(1, 2)\x7d;\x60" },
        { name := "q", kind := .value, line := 3, source := some "3 / 4" }] := by
  refine ⟨by decide +kernel, severalNames.extract_declarators.trans ?_⟩
  decide +kernel

end Concord.Export
