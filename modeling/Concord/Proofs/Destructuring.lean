import Concord.Proofs.Assignments
import Concord.Proofs.PatternLeaves

/-!
Destructuring declarations. A declaration is a pattern with an initializer and perhaps a type
between them, and the layout around these. Its text exports exactly the leaves of the pattern, in
their order and on their lines, each with the whole initializer as its source.
-/
namespace Concord.Export

open Concord.Scan Concord.Text

/-! Syntax -/

/-- A destructuring declaration: the pattern, its type and its initializer, and the blanks behind
each part of it up to the `;`. -/
structure Declaration where
  isObject : Bool
  entries : Entries isObject
  ascription : Option Ascription
  value : Initializer
  afterExport : Gap
  afterConst : Gap
  afterPattern : Gap
  afterEquals : Gap
  afterValue : Gap
  spaced : afterExport.text ≠ [] := by decide +kernel
  noArrow : afterEquals.text ≠ [] ∨ value.text.head? ≠ some '>' := by decide +kernel

namespace Declaration

variable (d : Declaration)

def pattern : Target :=
  .pattern d.isObject d.entries

def text : List Char :=
  "export".toList ++ (d.afterExport.text ++ ("const".toList ++ (d.afterConst.text ++
    (d.pattern.text ++ (d.afterPattern.text ++ (Ascription.text? d.ascription ++
      '=' :: (d.afterEquals.text ++ (d.value.text ++ (d.afterValue.text ++ [';'])))))))))

/-- The line on which the pattern starts. -/
def line : Nat :=
  1 + lineBreaks d.afterExport.text + lineBreaks d.afterConst.text

def kind : Kind :=
  if d.ascription.isSome then .destructuredTyped else .value

/-- The leaves of the pattern as exports. -/
def exports : List Export :=
  (d.pattern.leaves d.line).map fun leaf =>
    { name := String.ofList leaf.name
      kind := d.kind
      line := leaf.line
      source := some (String.ofList d.value.text) }

/-- What stands behind the pattern. -/
def assignment : Assignment where
  ascription := d.ascription
  afterEquals := d.afterEquals
  value := d.value
  afterValue := d.afterValue
  noArrow := d.noArrow

/-! Reading -/

/-- The pattern is read as one declarator, and a `;` behind its initializer is left. -/
theorem declarator_pattern {lead : List Char} {tokens rest : List Token} {later : Token}
    (clause : typeClause .finished rest = .ok (d.ascription.isSome, tokens))
    (read : initializer .finished tokens = .ok (some d.value.text, [later])) :
    declarator .finished ⟨lead, d.pattern.text, d.line⟩ rest = .ok (some (d.exports, [later])) := by
  let group : Token := ⟨lead, d.pattern.text, d.line⟩
  have bracket : group.group? = some (patternBracket d.isObject) := Bracket.ofOpener?_opener _
  have object : decide (group.group? = some .curly) = d.isObject := by
    rw [bracket]
    cases d.isObject <;> rfl
  have interior : group.interior = joined d.entries.texts := by
    simp [Token.interior, group, pattern, Target.text]
  have opens : (decide (group.group? = some .curly) || decide (group.group? = some .square)) =
      true := by
    rw [bracket]
    cases d.isObject <;> rfl
  -- the bindings of the entries are those of the pattern, on the line where its group begins
  have found : patternExports .finished group rest = .ok (d.exports, [later]) := by
    simp only [patternExports, clause, read, bind, Except.bind, object, interior]
    rw [bindings_entries]
    rfl
  rw [declarator, if_pos opens, found]
  rfl

/-- The tokens of a declaration: its keywords, its pattern, and those behind it, from which the type
and the initializer are read. -/
theorem scan_text : (scan d.text).stop = .finished ∧
    ∃ tokens rest later, (scan d.text).tokens =
      ⟨[], "export".toList, 1⟩ ::
        ⟨d.afterExport.text, "const".toList, 1 + lineBreaks d.afterExport.text⟩ ::
          ⟨d.afterConst.text, d.pattern.text, d.line⟩ :: rest ∧
      typeClause .finished rest = .ok (d.ascription.isSome, tokens) ∧
      initializer .finished tokens = .ok (some d.value.text, [later]) ∧ later.text = [';'] := by
  obtain ⟨mark, inner, opens, source, reads, clauses⟩ := d.assignment.reads ⟨_, .done⟩ (Or.inr rfl)
  generalize items_eq : Item.token [mark] :: inner = items at reads clauses
  -- from the pattern backwards, each part is read in front of the items behind it
  have stops : ∀ x ∈ (Item.source items).head?, isStopper x = true := by
    rw [← items_eq]
    rintro _ ⟨⟩
    rcases opens with rfl | rfl <;> decide
  have pattern : Readable (.token d.pattern.text :: (d.afterPattern.items ++ items)) [] := by
    refine .token (fun flag => d.pattern.isToken ?_) (d.afterPattern.readable reads)
    rw [List.append_nil, Gap.source_items]
    exact d.afterPattern.stops stops
  -- the keyword may touch the bracket, which is no part of a word
  have bracket : ∀ x ∈ (Item.source
      (.token d.pattern.text :: (d.afterPattern.items ++ items))).head?, isWordPart x = false := by
    rintro _ ⟨⟩
    cases d.isObject <;> decide
  have const := Word.readable_gap { text := "const".toList } d.afterConst (fun _ => bracket) pattern
  obtain ⟨last, whole⟩ := Word.readable_gap { text := "export".toList } d.afterExport
    (fun none => absurd none d.spaced) const true
  have text : Item.source (.token "export".toList :: (d.afterExport.items ++
      .token "const".toList :: (d.afterConst.items ++
        .token d.pattern.text :: (d.afterPattern.items ++ items)))) = d.text := by
    have clauses : Item.source items = Ascription.text? d.ascription ++
        '=' :: (d.afterEquals.text ++ (d.value.text ++ (d.afterValue.text ++ [';']))) := by
      rw [← items_eq, Item.source_cons, Item.text, List.singleton_append, ← source,
        Assignment.text]
      simp [assignment]
    simp only [Item.source_cons, Gap.source_items, Item.text, clauses]
    rfl
  obtain ⟨stop, tokens⟩ := whole.scan
  rw [text] at stop tokens
  refine ⟨stop, ?_⟩
  obtain ⟨left, later, clause, -, read, ended⟩ := clauses d.afterPattern.text
    (lineBreaks d.afterExport.text + lineBreaks d.afterConst.text +
      lineBreaks d.pattern.text + lineBreaks d.afterPattern.text)
  refine ⟨left, _, later, ?_, clause, read, ended⟩
  -- no keyword breaks a line
  have words : lineBreaks "export".toList = 0 ∧ lineBreaks "const".toList = 0 := ⟨rfl, rfl⟩
  rw [tokens]
  simp only [Item.tokens, Gap.tokens_items, List.nil_append, Declaration.line, words, Nat.zero_add,
    Nat.add_assoc]

/-- A destructuring declaration exports the leaves of its pattern and nothing else. -/
theorem extract_destructuring : extract d.text = .ok d.exports := by
  obtain ⟨stop, tokens, rest, later, listed, clause, read, ended⟩ := d.scan_text
  have declared : declarators .finished
      (⟨d.afterConst.text, d.pattern.text, d.line⟩ :: rest) = .ok (d.exports, [later]) := by
    rw [declarators_cons, d.declarator_pattern clause read]
    simp [bind, Except.bind, moreDeclarators, is_of_semi ended]
  have exported : exportClause .finished
      (⟨d.afterExport.text, "const".toList, 1 + lineBreaks d.afterExport.text⟩ ::
        ⟨d.afterConst.text, d.pattern.text, d.line⟩ :: rest) = .ok (d.exports, [later]) := by
    rw [exportClause_declares rfl, declared]
  -- the `;` that is left exports nothing
  have nothing : exportsFrom .finished ';' [later] = .ok [] :=
    exportsFrom_of_no_export (by simpa using isWord_of_semi ended (by decide)) ';'
  rw [extract_eq, stop, listed, exportsFrom_export rfl exported nothing, List.append_nil]

end Declaration

/-- Patterns in patterns with keys of every kind, defaults with colons and commas of their own, and
a type with a comma. -/
def nested : Declaration where
  isObject := true
  entries :=
    .shorthand .space { text := ['a'] } none .empty <|
    .keyed .space (.string { quote := '\x27', text := "b c".toList }) .empty .space
      (.pattern false <|
        .item .empty (.name { text := ['d'] })
          (some { text := "[1, 2]".toList, before := .space, after := .space }) .empty <|
        .hole .space <|
        .rest .space .space { text := ['e'] } .empty .nil)
      none .empty <|
    .keyed { text := "\n  ".toList } (.computed { text := "f(1)".toList }) .empty .space
      (.pattern true <|
        .keyed .empty (.number { text := ".5".toList }) .empty .space (.name { text := ['g'] })
          (some { text := "\x7b h: 2 \x7d".toList, before := .space, after := .space }) .empty .nil)
      none .empty <|
    .rest .space .empty { text := ['i'] } .space .nil
  ascription := some { text := "Map<K, V>".toList, before := .space, after := .space }
  value := { text := "load()".toList }
  afterExport := .space
  afterConst := .space
  afterPattern := .empty
  afterEquals := .space
  afterValue := .empty

theorem extract_destructuring_nested :
    nested.text = ("export const \x7b a, 'b c': [d = [1, 2], , ... e],\n" ++
      "  [f(1)]: \x7b.5: g = \x7b h: 2 \x7d\x7d, ...i \x7d: Map<K, V> = load();").toList ∧
    extract nested.text = .ok ([("a", 1), ("d", 1), ("e", 1), ("g", 2), ("i", 2)].map fun leaf =>
      { name := leaf.1, kind := .destructuredTyped, line := leaf.2, source := some "load()" }) := by
  refine ⟨by decide +kernel, nested.extract_destructuring.trans ?_⟩
  decide +kernel

end Concord.Export
