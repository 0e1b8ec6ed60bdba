import Concord.Access.Collect
import Concord.Proofs.FirstReturns
import Concord.Proofs.ReexportLists
import Concord.Script.Reads

/-!
The keys of an object literal, told without a grammar. Cut at its commas, a literal gives back its
properties, and the first word or two of a property tell its key: the name of a method stands behind
`get`, `set` or `async`, unless one of these is the name itself. The dots of a spread do not let a
regular expression follow, so a spread keeps together if it does where `/` divides.
-/
namespace Concord.Access

open Concord.Scan Concord.Text
open Concord.Export (Fragment Gap Group Key Legible Literal Name isStopper_of_isAsciiBlank joined
  keyText keyText_legible piecesAt reads_joined startsEntry startsEntry_append stops_cons)

/-! Syntax -/

/-- A value in an object literal, with no comma at depth 0. -/
structure Value extends Fragment where
  noComma : ((scan text).tokens.all fun t => !t.is ',') = true := by decide +kernel

/-- The words that can stand in front of the name of a method. -/
inductive Modifier where
  | get
  | set
  | async

def Modifier.name : Modifier → Name
  | get => { text := "get".toList }
  | set => { text := "set".toList }
  | async => { text := "async".toList }

/-- What follows the name of a method: its parameters and its body. -/
structure Method where
  before : Gap
  parameters : Group .round
  between : Gap
  body : Group .curly

def Method.text (method : Method) : List Char :=
  method.before.text ++ (method.parameters.text ++ (method.between.text ++ method.body.text))

/-- A property of an object literal. -/
inductive Property where
  | shorthand (name : Name)
  | pair (key : Key) (before after : Gap) (value : Value)
  | method (name : Name) (tail : Method)
  | modified (modifier : Modifier) (gap : Gap) (name : Name) (tail : Method)
      (apart : gap.text ≠ [])
  | spread (gap : Gap) (value : Value)

namespace Property

def text : Property → List Char
  | shorthand name => name.text
  | pair key before after value => keyText key before after ++ value.text
  | method name tail => name.text ++ tail.text
  | modified modifier gap name tail _ =>
    modifier.name.text ++ (gap.text ++ (name.text ++ tail.text))
  | spread gap value => "...".toList ++ (gap.text ++ value.text)

/-- The key of a property, unless it is computed or the property is a spread. -/
def key? : Property → Option (List Char)
  | shorthand name => some name.text
  | pair (.identifier name) _ _ _ => some name.text
  | pair (.string literal) _ _ _ => some literal.text
  | pair _ _ _ _ => none
  | method name _ => some name.text
  | modified _ _ name _ _ => some name.text
  | spread _ _ => none

/-- The value of a spread does not start with a regular expression, which behind a dot is read as a
division. Or it does, and the spread with its dots still balances and has no comma at depth 0. -/
def Undivided : Property → Prop
  | spread gap value =>
    let text := "...".toList ++ (gap.text ++ value.text)
    ((scan value.text).tokens.head?.all fun t => t.first ≠ '/') = true
      ∨ isContained text = true ∧ ((scan text).tokens.all fun t => !t.is ',') = true
  | _ => True

instance decidableUndivided : (p : Property) → Decidable p.Undivided
  | shorthand _ | pair .. | method .. | modified .. => .isTrue trivial
  | spread _ _ => inferInstanceAs (Decidable (_ = true ∨ _ = true ∧ _ = true))

end Property

/-- A property with the blanks around it. -/
structure LaidProperty where
  lead : Gap
  property : Property
  trail : Gap

def LaidProperty.text (p : LaidProperty) : List Char :=
  p.lead.text ++ (p.property.text ++ p.trail.text)

/-- An object literal. Its end is what stands behind a comma that nothing follows, or between the
braces of a literal without properties. -/
structure ObjectLiteral where
  properties : List LaidProperty
  ending : Option Gap

namespace ObjectLiteral

def texts (l : ObjectLiteral) : List (List Char) :=
  l.properties.map LaidProperty.text ++ l.ending.toList.map Gap.text

def text (l : ObjectLiteral) : List Char :=
  '\x7b' :: (joined l.texts ++ ['\x7d'])

/-- The keys of the properties that have one. -/
def keys (l : ObjectLiteral) : List (List Char) :=
  l.properties.filterMap fun p => p.property.key?

end ObjectLiteral

end Concord.Access

namespace Concord.Scan

open Concord.Text

/-! Reading behind a dot -/

variable {last : Bool} {rest : List Char}

/-- Only a slash is read in two ways. -/
theorem Lexes.any_flag {kind : Lexeme} {x : Char} {text : List Char}
    (lexes : Lexes true kind (x :: text) rest last) (code : x ≠ '/')
    (solid : ¬ (kind = .blank ∨ kind = .comment)) (flag : Bool) :
    Lexes flag kind (x :: text) rest last := by
  generalize whole : x :: text = unit at lexes
  cases lexes with
  | blank => exact absurd (Or.inl rfl) solid
  | lineComment | blockComment => exact absurd (Or.inr rfl) solid
  | openComment | regex =>
    obtain ⟨rfl, -⟩ := List.cons.inj whole
    exact absurd rfl code
  | quoted quotes closed => exact .quoted quotes closed
  | word starts inside ends => exact .word starts inside ends
  | mark notBlank notQuote notWord _ =>
    obtain ⟨rfl, -⟩ := List.cons.inj whole
    exact .mark notBlank notQuote notWord fun slash => absurd slash code

theorem IsToken.any_flag {x : Char} {text : List Char} (token : IsToken true (x :: text) rest last)
    (code : x ≠ '/') (flag : Bool) : IsToken flag (x :: text) rest last := by
  generalize whole : x :: text = unit at token
  cases token with
  | lexeme lexes quiet solid =>
    subst whole
    exact .lexeme (lexes.any_flag code solid flag) quiet solid
  | group bracket shuts => exact .group bracket shuts
  | template shuts => exact .template shuts

theorem Lexes.trivia_flag {kind : Lexeme} {text : List Char}
    (lexes : Lexes true kind text rest last) (trivia : kind = .blank ∨ kind = .comment)
    (flag : Bool) : Lexes flag kind text rest flag := by
  cases lexes with
  | blank blank => exact .blank blank
  | lineComment inside ends => exact .lineComment inside ends
  | blockComment closed => exact .blockComment closed
  | openComment | quoted | regex | word => rcases trivia with same | same <;> cases same
  | mark notBlank =>
    rcases trivia with same | same
    · exact absurd same (punctuation_ne rfl (by simp) _)
    · exact absurd same (punctuation_ne rfl (by simp) _)

/-- Items whose first token does not start with a slash are read wherever they stand. -/
theorem Reads.any_flag {items : List Item} (reads : Reads true items rest last) (flag : Bool) :
    ∀ (lead : List Char) (line : Nat),
      (∀ t ∈ (Item.tokens lead line items).head?, t.first ≠ '/') →
        ∃ after, Reads flag items rest after := by
  generalize before : true = front at reads
  induction reads with
  | done => exact fun _ _ _ => ⟨flag, .done⟩
  | gap lexes trivia _ ih =>
    intro lead line code
    subst before
    obtain ⟨after, later⟩ := ih rfl _ _ code
    exact ⟨after, .gap (lexes.trivia_flag trivia flag) trivia later⟩
  | @token _ _ _ text rest items one more _ =>
    intro lead line code
    subst before
    obtain ⟨x, inner, rfl⟩ := List.exists_cons_of_ne_nil one.ne_nil
    exact ⟨_, .token (one.any_flag (code _ rfl) flag) more⟩

end Concord.Scan

namespace Concord.Access

open Concord.Scan Concord.Text
open Concord.Export (Fragment Gap Group Key Legible Literal Name isStopper_of_isAsciiBlank joined
  keyText keyText_legible piecesAt reads_joined startsEntry startsEntry_append stops_cons)

/-! Cutting -/

section

variable {flag : Bool} {seps text : List Char}

/-- A group can stand in front of anything. -/
theorem legible_group {bracket : Bracket} (group : Group bracket)
    (other : bracket.opener ∉ seps) (later : ∀ flag, Legible flag seps text) :
    Legible flag seps (group.text ++ text) := by
  intro rest stops
  obtain ⟨middle, token⟩ := isToken_of_isGroup group.whole flag (text ++ rest)
  obtain ⟨items, last, rfl, uncut, reads⟩ := later middle rest stops
  refine ⟨.token group.text :: items, last, rfl, fun x member inside => ?_, .token token reads⟩
  rcases List.mem_cons.mp inside with same | inside
  · have shown : group.text = [x] := (Item.token.inj same).symm
    have opens := group.head_text
    rw [shown] at opens
    exact other (Option.some.inj opens ▸ member)
  · exact uncut x member inside

/-- A text without separators can be read anywhere if its first token starts with no slash. -/
theorem legible_anywhere (fragment : Fragment)
    (apart : ∀ x ∈ seps, ∀ t ∈ (scan fragment.text).tokens, t.is x = false)
    (starts : ∀ t ∈ (scan fragment.text).tokens.head?, t.first ≠ '/') :
    Legible flag seps fragment.text := by
  intro rest stops
  obtain ⟨items, source, -, tokens, reads⟩ := reads_of_isContained fragment.contained
  obtain ⟨_, front⟩ := reads stops
  rw [tokens] at starts
  obtain ⟨last, reads⟩ := front.any_flag flag [] 1 starts
  refine ⟨items, last, source, fun x member inside => ?_, reads⟩
  -- a separator among the items would be a token of the text
  obtain ⟨t, listed, shown⟩ := Item.exists_mem_tokens [] 1 inside
  rw [← tokens] at listed
  have other := apart x member t listed
  rw [Token.is, shown] at other
  simp at other

/-- The first token of a text that starts with a mark is the mark. -/
theorem first_of_separator (fragment : Fragment) {x : Char} {more : List Char}
    (shown : fragment.text = x :: more) (separates : isSeparator x = true) :
    ∀ t ∈ (scan fragment.text).tokens.head?, t.first = x := by
  obtain ⟨items, source, -, tokens, reads⟩ := reads_of_isContained fragment.contained
  obtain ⟨_, reads⟩ := @reads [] (by simp)
  rw [tokens]
  rw [shown] at source
  intro t first
  cases reads with
  | done => cases source
  | @gap _ _ kind unit _ items lexes trivia =>
    -- the mark is neither a blank nor the slash of a comment
    obtain ⟨y, inner, rfl⟩ := List.exists_cons_of_ne_nil lexes.ne_nil
    obtain ⟨rfl, -⟩ := List.cons.inj source
    obtain ⟨same, -, -⟩ := lexes.unique (.separator separates true _) rfl
    rcases trivia with rfl | rfl <;> cases same
  | @token _ _ _ unit _ items one =>
    obtain ⟨y, inner, rfl⟩ := List.exists_cons_of_ne_nil one.ne_nil
    obtain ⟨rfl, -⟩ := List.cons.inj source
    obtain rfl := Option.some.inj first
    rfl

theorem Value.legible (value : Value) : Legible true [','] value.text :=
  value.toFragment.legible (by simpa using value.noComma)

theorem Method.legible (tail : Method) (trail : Gap) :
    Legible flag [','] (tail.text ++ trail.text) := by
  rw [Method.text, List.append_assoc, List.append_assoc, List.append_assoc]
  refine .behind_gap tail.before (legible_group tail.parameters (by decide) fun _ => ?_)
  exact .behind_gap tail.between (legible_group tail.body (by decide) fun _ => trail.legible)

/-- Behind the name of a method its parameters open. -/
theorem Method.exists_text (tail : Method) :
    ∃ back, tail.text = tail.before.text ++ '(' :: back := by
  obtain ⟨inner, opens⟩ := List.head?_eq_some_iff.mp tail.parameters.head_text
  exact ⟨_, by rw [Method.text, opens, List.cons_append]; rfl⟩

theorem Method.stops (tail : Method) (trail : List Char) :
    ∀ x ∈ (tail.text ++ trail).head?, isStopper x = true := by
  obtain ⟨back, opens⟩ := tail.exists_text
  rw [opens, List.append_assoc]
  exact tail.before.stops (stops_cons (by decide) _)

/-- A property can be read wherever it stands, and none of its commas is at depth 0. -/
theorem Property.legible {p : Property} (undivided : p.Undivided) (trail : Gap) :
    Legible flag [','] (p.text ++ trail.text) := by
  -- each form is laid out from its parts, and each part is read in front of what may follow it
  cases p with
  | shorthand name =>
    exact .append (name.legible.mono (by decide)) (fun _ => trail.legible) trail.stops_alone
  | pair key before after value =>
    rw [text, List.append_assoc]
    refine keyText_legible key before after (by decide) (by decide) ?_
    exact value.legible.append (fun _ => trail.legible) trail.stops_alone
  | method name tail =>
    rw [text, List.append_assoc]
    exact .append (name.legible.mono (by decide)) (fun _ => tail.legible trail) (tail.stops _)
  | modified modifier gap name tail apart =>
    rw [text, List.append_assoc, List.append_assoc, List.append_assoc]
    refine .append (modifier.name.legible.mono (by decide)) (fun _ => .behind_gap gap ?_) ?_
    · exact .append (name.legible.mono (by decide)) (fun _ => tail.legible trail) (tail.stops _)
    · exact fun x first => isStopper_of_isAsciiBlank (gap.starts apart _ x first)
  | spread gap value =>
    rcases undivided with starts | ⟨contained, noComma⟩
    · -- behind the last dot a slash would divide, and the value starts with none
      have dot : isSeparator '.' = true := by decide
      have behind : Legible (regexMayFollow '.') [','] (value.text ++ trail.text) :=
        (legible_anywhere value.toFragment (by simpa using value.noComma)
          (by simpa [Option.all_eq_true] using starts)).append (fun _ => trail.legible)
          trail.stops_alone
      rw [text, List.append_assoc, List.append_assoc]
      exact .cons dot (by decide) (.cons dot (by decide) (.cons dot (by decide)
        (.behind_gap gap behind)))
    · -- read with its dots, the spread starts with one of them
      let dotted : Fragment := ⟨_, contained⟩
      have first := first_of_separator dotted (x := '.') rfl (by decide)
      refine .append ?_ (fun _ => trail.legible) trail.stops_alone
      exact legible_anywhere dotted (by simpa [dotted] using noComma)
        fun t found => by rw [first t found]; decide

end

/-! Keys -/

/-- Trimming the end of a text keeps a character that is no blank, and what stands before it. -/
theorem trimEnd_past {x : Char} (shown : isBlank x = false) (front back : List Char) :
    trimEnd (front ++ x :: back) = front ++ x :: trimEnd back := by
  have kept : trimEnd (x :: back) ≠ [] := @trimEnd_ne_nil (x :: back) shown
  rw [trimEnd_append kept, Export.trimEnd_cons shown]

/-- The word behind the trivia at the cursor. -/
def wordBehind? (c : Cursor) : Option (List Char) :=
  match c.skipTrivia with
  | .error _ => none
  | .ok here => here.word?.map Prod.fst

theorem name_head (name : Name) :
    ∃ x more, name.text = x :: more ∧ isPlainStart x = true := by
  obtain ⟨text, plain⟩ := name
  cases text with
  | nil => cases plain
  | cons x more =>
    rw [isIdentifier, Bool.and_eq_true] at plain
    exact ⟨x, more, rfl, plain.1⟩

/-- At a name, the word that is read is the name. -/
theorem word?_name {c : Cursor} (name : Name) {rest : List Char}
    (split : c.rest = name.text ++ rest) (ends : ∀ x ∈ rest.head?, isWordPart x = false) :
    ∃ last, c.skipTrivia = .ok c ∧ c.word? = some (name.text, c.advance name.text rest last) := by
  obtain ⟨last, token⟩ := @Name.isToken name c.regexOk rest ends
  refine ⟨last, (token.skips split).1, ?_⟩
  obtain ⟨x, more, shown, plain⟩ := name_head name
  rw [token.word? split, shown, List.head?_cons, Option.any_some,
    if_pos (isWordStart_of_isPlainStart plain)]

theorem wordBehind?_name {c : Cursor} (gap : Gap) (name : Name) {rest : List Char}
    (split : c.rest = gap.text ++ (name.text ++ rest))
    (ends : ∀ x ∈ rest.head?, isWordPart x = false) : wordBehind? c = some name.text := by
  let here := c.advance gap.text (name.text ++ rest) c.regexOk
  obtain ⟨last, stays, read⟩ := @word?_name here name rest rfl ends
  have skipped : c.skipTrivia = .ok here :=
    (Cursor.skipTrivia_blanks split (List.all_eq_true.mp gap.blank)).trans stays
  rw [wordBehind?, skipped]
  simp only [read, Option.map_some]

/-- Behind blanks there is no word at a colon, at an opening bracket or at the end. -/
theorem wordBehind?_none {c : Cursor} (gap : Gap) {rest : List Char}
    (split : c.rest = gap.text ++ rest)
    (ends : ∀ x ∈ rest.head?, x = ':' ∨ x = '(') : wordBehind? c = none := by
  let here := c.advance gap.text rest c.regexOk
  have skipped : c.skipTrivia = here.skipTrivia :=
    Cursor.skipTrivia_blanks split (List.all_eq_true.mp gap.blank)
  -- neither mark is trivia or a word
  have lexeme (kind : Lexeme) (next : Cursor) (read : here.lexeme? = some (kind, next))
      (mark : kind = .mark ∨ kind = .opener .round) : wordBehind? c = none := by
    have stays : here.skipTrivia = .ok here := by
      rcases mark with rfl | rfl <;>
        exact Cursor.skipTrivia_of_token read (by simp) (by simp) (by simp)
    rw [wordBehind?, skipped, stays]
    rcases mark with rfl | rfl <;> simp [Cursor.word?, read]
  cases rest with
  | nil =>
    have ended : here.lexeme? = none := Cursor.lexeme?_eq_none_iff.mpr rfl
    rw [wordBehind?, skipped, Cursor.skipTrivia, ended]
    simp [Cursor.word?, ended]
  | cons x rest =>
    rcases ends x rfl with rfl | rfl
    · have colon := Lexes.separator (show isSeparator ':' = true by decide) c.regexOk rest
      exact lexeme _ _ (Cursor.lexeme?_of_lexes colon rfl) (Or.inl rfl)
    · have opens := Lexes.openerMark c.regexOk .round rest
      exact lexeme _ _ (Cursor.lexeme?_of_lexes opens rfl) (Or.inr rfl)

/-- The text of the string at the cursor. -/
def quotedKey? (quote : Char) (c : Cursor) : Option (List Char) :=
  match c.skipToken with
  | .error _ => none
  | .ok stop => some ((c.upTo stop).tail.reverse.dropWhile (· = quote)).reverse

/-- The word at the cursor, or the one behind it if it is a modifier. -/
def namedKey? (c : Cursor) : Option (List Char) :=
  c.word?.map fun (first, next) =>
    if ["get".toList, "set".toList, "async".toList].contains first then
      (wordBehind? next).getD first
    else first

/-- The first character of an entry tells what is looked for. -/
theorem entryKey?_eq {entry more : List Char} {x : Char} (trimmed : trim entry = x :: more) :
    entryKey? entry =
      if "...".toList.isPrefixOf (x :: more) || x = '[' then none
      else if x = '\x22' || x = '\x27' then quotedKey? x (.start (x :: more))
      else namedKey? (.start (x :: more)) := by
  -- the tests of the definition in their order, with the first character in place of the entry
  rw [entryKey?]
  simp only [trimmed, List.isEmpty_cons, Bool.false_or, List.head?_cons, Option.some.injEq]
  split
  · rfl
  split
  · rfl
  rw [namedKey?]
  cases (Cursor.start (x :: more)).word? with
  | none => rfl
  | some word =>
    simp only [Option.map_some, wordBehind?]
    cases word.2.skipTrivia with
    | error halt => simp only [Option.getD_none, ite_self]
    | ok here =>
      cases behind : here.word? with
      | none => simp only [behind, Option.map_none, Option.getD_none, ite_self]
      | some second =>
        simp only [behind, Option.map_some, Option.getD_some]
        exact (apply_ite some _ _ _).symm

/-- The key of an entry that starts with a name is told from its first two words. -/
theorem entryKey?_named {entry rest : List Char} (name : Name)
    (trimmed : trim entry = name.text ++ rest) (ends : ∀ x ∈ rest.head?, isWordPart x = false) :
    ∃ next : Cursor, next.rest = rest ∧ entryKey? entry =
      some (if ["get".toList, "set".toList, "async".toList].contains name.text then
        (wordBehind? next).getD name.text
      else name.text) := by
  obtain ⟨last, -, read⟩ := @word?_name (Cursor.start (name.text ++ rest)) name rest rfl ends
  refine ⟨(Cursor.start (name.text ++ rest)).advance name.text rest last, rfl, ?_⟩
  have noDots := Export.not_dots_of_startsEntry (startsEntry_append name.startsEntry rest)
  obtain ⟨x, more, shown, plain⟩ := name_head name
  -- a name is no string, no spread and no computed key
  have other {mark : Char} (notPlain : isPlainPart mark = false) : x ≠ mark :=
    Export.ne_of_isPlainPart (by simp [isPlainPart, plain]) notPlain
  have whole : name.text ++ rest = x :: (more ++ rest) := by rw [shown, List.cons_append]
  rw [whole] at trimmed read noDots
  rw [entryKey?_eq trimmed, noDots]
  simp only [@other '[' (by decide), @other '\x22' (by decide), @other '\x27' (by decide),
    Bool.or_false, decide_false, Bool.false_eq_true, if_false]
  rw [namedKey?, read, whole, Option.map_some]

/-- The blanks in front of an entry are trimmed, those in front of a mark in it are not. -/
theorem trim_entry (lead gap : Gap) {x : Char} {front : List Char}
    (starts : startsEntry front = true) (shown : isBlank x = false) (back : List Char) :
    trim (lead.text ++ (front ++ (gap.text ++ x :: back))) =
      front ++ (gap.text ++ x :: trimEnd back) := by
  rw [lead.trim (Export.shown_of_startsEntry (startsEntry_append starts _)), ← List.append_assoc,
    trimEnd_past shown, List.append_assoc]

/-- A name alone, in front of a colon or of parameters is the key, even if it is a modifier. -/
theorem entryKey?_name {entry rest : List Char} (name : Name) (gap : Gap)
    (ends : ∀ x ∈ rest.head?, x = ':' ∨ x = '(')
    (trimmed : trim entry = name.text ++ (gap.text ++ rest)) :
    entryKey? entry = some name.text := by
  have stops : ∀ x ∈ rest.head?, isStopper x = true := by
    intro x first
    rcases ends x first with rfl | rfl <;> decide
  obtain ⟨next, split, read⟩ := entryKey?_named name trimmed fun x first =>
    Export.isWordPart_of_isStopper (gap.stops stops x first)
  rw [read, wordBehind?_none gap split ends, Option.getD_none, ite_self]

/-- Behind a modifier the second name is the key. -/
theorem entryKey?_modified {entry rest : List Char} (modifier : Modifier) (gap : Gap) (name : Name)
    (apart : gap.text ≠ []) (ends : ∀ x ∈ rest.head?, isWordPart x = false)
    (trimmed : trim entry = modifier.name.text ++ (gap.text ++ (name.text ++ rest))) :
    entryKey? entry = some name.text := by
  have stops := gap.starts apart (name.text ++ rest)
  obtain ⟨next, split, read⟩ := entryKey?_named modifier.name trimmed fun x first =>
    Export.isWordPart_of_isStopper (isStopper_of_isAsciiBlank (stops x first))
  have listed :
      ["get".toList, "set".toList, "async".toList].contains modifier.name.text = true := by
    cases modifier <;> decide
  rw [read, if_pos listed, wordBehind?_name gap name split ends, Option.getD_some]

/-- The quotes around a string are dropped. -/
theorem quotedKey?_literal {c : Cursor} (literal : Literal) {rest : List Char}
    (split : c.rest = literal.quote :: (literal.text ++ [literal.quote]) ++ rest) :
    quotedKey? literal.quote c = some literal.text := by
  let unit := literal.quote :: (literal.text ++ [literal.quote])
  obtain ⟨-, skipped⟩ := (literal.isToken c.regexOk rest).skips split
  have token : c.upTo (c.advance unit rest false) = unit := Cursor.upTo_eq split
  -- the text does not end with a quote of its own
  have bare : literal.text.reverse.dropWhile (· = literal.quote) = literal.text.reverse := by
    cases reversed : literal.text.reverse with
    | nil => rfl
    | cons x more =>
      have member : x ∈ literal.text := List.mem_reverse.mp (reversed ▸ List.mem_cons_self)
      have plain := List.all_eq_true.mp literal.plain x member
      simp only [Bool.and_eq_true, decide_eq_true_eq] at plain
      simp [plain.1.1]
  rw [quotedKey?, skipped]
  show some _ = _
  rw [token]
  simp [unit, bare]

theorem entryKey?_string {entry rest : List Char} (literal : Literal)
    (trimmed : trim entry = literal.quote :: (literal.text ++ [literal.quote]) ++ rest) :
    entryKey? entry = some literal.text := by
  have noDots := Export.not_dots_of_startsEntry
    (startsEntry_append (Key.string literal).startsEntry rest)
  rw [Key.text, List.cons_append] at noDots
  rw [List.cons_append] at trimmed
  have quoted := @quotedKey?_literal (.start (trim entry)) literal rest trimmed
  rw [trimmed] at quoted
  rw [entryKey?_eq trimmed, noDots, quoted]
  rcases literal.quotes with same | same <;> rw [same] <;> rfl

/-- An entry that starts with a mark or a bracket has no key: its key is a number or computed, or it
is a spread. -/
theorem entryKey?_mark {entry more : List Char} {x : Char}
    (mark : isSeparator x = true ∨ x = '[') (trimmed : trim entry = x :: more) :
    entryKey? entry = none := by
  rw [entryKey?_eq trimmed]
  rcases mark with separates | rfl
  · have read := Cursor.lexeme?_of_lexes (c := Cursor.start (x :: more))
      (.separator separates true more) rfl
    have noWord : namedKey? (.start (x :: more)) = none := by
      rw [namedKey?, Cursor.word?, read]
      rfl
    simp only [isSeparator, Bool.and_eq_true, decide_eq_true_eq] at separates
    obtain ⟨⟨⟨-, notApostrophe⟩, notQuote⟩, -⟩ := separates
    simp [notApostrophe, notQuote, noWord]
  · rw [if_pos (by simp)]

theorem entryKey?_gap (gap : Gap) : entryKey? gap.text = none := by
  have trimmed : trim gap.text = [] := by
    rw [trim, trimStart, List.dropWhile_eq_nil_iff.mpr gap.isBlank_of_mem]
    rfl
  rw [entryKey?, trimmed]
  rfl

theorem numeral_head (numeral : Export.Numeral) :
    ∃ x more, numeral.text = x :: more ∧ isSeparator x = true := by
  obtain ⟨text, number⟩ := numeral
  cases text with
  | nil => cases number
  | cons x more =>
    refine ⟨x, more, rfl, ?_⟩
    simp only [Export.isNumber, Bool.and_eq_true, Bool.or_eq_true, decide_eq_true_eq] at number
    rcases number.1 with digit | ⟨rfl, -⟩
    · exact Export.isSeparator_of_isDigit digit
    · decide

/-- The key of a property is told from its text. -/
theorem LaidProperty.entryKey?_text (p : LaidProperty) : entryKey? p.text = p.property.key? := by
  obtain ⟨lead, property, trail⟩ := p
  -- the trimmed entry begins with the property, so its first character tells its form
  cases property with
  | shorthand name =>
    refine @entryKey?_name _ [] name .empty (by simp) ?_
    have trimmed := (Export.Target.name name).trim lead trail
    rw [List.append_nil, Gap.empty, List.append_nil]
    exact trimmed
  | pair key before after value =>
    have trimmed := trim_entry lead before key.startsEntry (show isBlank ':' = false by decide)
      (after.text ++ (value.text ++ trail.text))
    have whole : lead.text ++ (key.text ++ (before.text ++ ':' ::
        (after.text ++ (value.text ++ trail.text)))) =
        LaidProperty.text ⟨lead, .pair key before after value, trail⟩ := by
      simp [LaidProperty.text, Property.text, keyText]
    -- of a pair the key decides: a name, a quoted text, a number or a computed one
    rw [whole] at trimmed
    cases key with
    | identifier name => exact entryKey?_name name before (by simp) trimmed
    | string literal => exact entryKey?_string literal trimmed
    | number numeral =>
      obtain ⟨x, more, digits, mark⟩ := numeral_head numeral
      rw [Key.text, digits] at trimmed
      exact entryKey?_mark (Or.inl mark) trimmed
    | computed expression => exact entryKey?_mark (Or.inr rfl) trimmed
  | method name tail =>
    obtain ⟨back, opens⟩ := tail.exists_text
    have trimmed := trim_entry lead tail.before name.startsEntry
      (show isBlank '(' = false by decide) (back ++ trail.text)
    have whole : lead.text ++ (name.text ++ (tail.before.text ++ '(' :: (back ++ trail.text))) =
        LaidProperty.text ⟨lead, .method name tail, trail⟩ := by
      simp [LaidProperty.text, Property.text, opens]
    rw [whole] at trimmed
    exact entryKey?_name name tail.before (by simp) trimmed
  | modified modifier gap name tail apart =>
    obtain ⟨back, opens⟩ := tail.exists_text
    have trimmed := trim_entry lead tail.before
      (startsEntry_append modifier.name.startsEntry (gap.text ++ name.text))
      (show isBlank '(' = false by decide) (back ++ trail.text)
    have whole : lead.text ++ ((modifier.name.text ++ (gap.text ++ name.text)) ++
        (tail.before.text ++ '(' :: (back ++ trail.text))) =
        LaidProperty.text ⟨lead, .modified modifier gap name tail apart, trail⟩ := by
      simp [LaidProperty.text, Property.text, opens]
    rw [whole, List.append_assoc, List.append_assoc] at trimmed
    -- behind a modifier the second word is the name, if a parenthesis follows it
    refine entryKey?_modified modifier gap name apart (fun x first => ?_) trimmed
    exact Export.isWordPart_of_isStopper (tail.before.stops (stops_cons (by decide) _) x first)
  | spread gap value =>
    have dot : isBlank '.' = false := by decide
    have trimmed : trim (LaidProperty.text ⟨lead, .spread gap value, trail⟩) =
        '.' :: trimEnd ('.' :: '.' :: (gap.text ++ value.text) ++ trail.text) :=
      (lead.trim (show isBlank (List.headD ('.' :: _) ' ') = false from dot)).trans
        (Export.trimEnd_cons dot _)
    exact entryKey?_mark (Or.inl (by decide)) trimmed

/-! Literals -/

/-- No key comes from a list of no texts, which has one empty piece. -/
theorem filterMap_piecesAt {f : List Char → Option (List Char)} (empty : f [] = none)
    (offset : Nat) (texts : List (List Char)) :
    (piecesAt offset texts).filterMap (fun piece => f piece.text) = texts.filterMap f := by
  match texts with
  | [] => simp [piecesAt, empty]
  | [text] =>
    rw [piecesAt, List.filterMap_cons, List.filterMap_cons]
    rfl
  | text :: next :: more =>
    have later := filterMap_piecesAt empty (offset + byteSize text + 1) (next :: more)
    rw [piecesAt, List.filterMap_cons, List.filterMap_cons, later]

namespace ObjectLiteral

variable (l : ObjectLiteral)

theorem trim_text : trim l.text = l.text := by
  have starts : isBlank (l.text.headD ' ') = false := by rw [text, List.headD_cons]; decide
  rw [trim_of_shown starts, text, ← List.cons_append, trimEnd_of_shown (by decide)]

/-- The keys of the entries are those of the properties; a trailing comma adds none. -/
theorem filterMap_texts : l.texts.filterMap entryKey? = l.keys := by
  have ending : (l.ending.toList.map Gap.text).filterMap entryKey? = [] := by
    cases l.ending with
    | none => rfl
    | some gap => simp [entryKey?_gap]
  rw [texts, List.filterMap_append, ending, List.append_nil, List.filterMap_map, keys]
  exact List.filterMap_congr fun p _ => p.entryKey?_text

/-- A literal is cut into its entries. -/
theorem split_texts (undivided : ∀ p ∈ l.properties, p.property.Undivided) :
    split ',' (joined l.texts) = .ok (piecesAt 0 l.texts) := by
  have each : ∀ text ∈ l.texts, ∀ flag, Legible flag [','] text := by
    intro text member flag
    rcases List.mem_append.mp member with property | gap
    · obtain ⟨p, listed, rfl⟩ := List.mem_map.mp property
      exact .behind_gap p.lead (Property.legible (undivided p listed) p.trail)
    · obtain ⟨ending, -, rfl⟩ := List.mem_map.mp gap
      exact ending.legible
  obtain ⟨items, last, joins, reads, pieces⟩ := @reads_joined _ true [] each (by simp)
  rw [joins, reads.split_source (by decide), pieces]

end ObjectLiteral

/-- Where the slashes of its spreads divide nothing, a literal gives the keys of its properties, and
so does the parsed literal if each of them is told its own. -/
theorem splitKeys_text [ScriptParser] (l : ObjectLiteral)
    (undivided : ∀ p ∈ l.properties, p.property.Undivided) :
    splitKeys l.text = l.keys ∧
      (ScriptParser.propertyKeys? ('(' :: l.text ++ [')']) =
          some (l.properties.map fun p => p.property.key?) →
        parsedKeys? l.text = some (splitKeys l.text)) := by
  have told : splitKeys l.text = l.keys := by
    have bare : ((dropMark? '\x7b' l.text).bind (dropLastMark? '\x7d')).getD l.text =
        joined l.texts := by
      rw [ObjectLiteral.text, dropMark?, if_pos rfl, Option.bind_some,
        Export.dropLastMark?_eq_some_iff.mpr rfl, Option.getD_some]
    rw [splitKeys, l.trim_text]
    simp only [bare, l.split_texts undivided]
    rw [filterMap_piecesAt rfl, l.filterMap_texts]
  refine ⟨told, fun reported => ?_⟩
  rw [told, parsedKeys?, reported, Option.map_some, List.filterMap_map, ObjectLiteral.keys]
  rfl

theorem apostrophe_quotes : '\x27' = '\x27' ∨ '\x27' = '\x22' :=
  Or.inl rfl

/-- A literal with keys of most kinds, two of them modifiers. -/
def mixedLiteral : ObjectLiteral where
  properties :=
    [⟨.space, .shorthand { text := "get".toList }, .empty⟩,
      ⟨.space, .pair (.string ⟨'\x27', "a-b".toList, apostrophe_quotes, by decide +kernel⟩) .empty
        .space { text := "[3, 4]".toList }, .empty⟩,
      ⟨.space, .modified .get .space { text := "size".toList }
        ⟨.empty, { text := "()".toList }, .space, { text := "\x7b return 2 \x7d".toList }⟩
        Gap.space_ne_nil, .empty⟩,
      ⟨.space, .pair (.identifier { text := "async".toList }) .empty .space
        { text := "/a,b/".toList }, .empty⟩,
      ⟨.space, .pair (.computed { text := "k".toList }) .empty .space
        { text := "0".toList }, .empty⟩,
      ⟨.space, .spread .empty { text := "rest".toList }, .empty⟩]
  ending := some .space

theorem splitKeys_text_mixed :
    mixedLiteral.text = ("\x7b get, 'a-b': [3, 4], get size() \x7b return 2 \x7d, " ++
        "async: /a,b/, [k]: 0, ...rest, \x7d").toList ∧
      splitKeys mixedLiteral.text = ["get", "a-b", "size", "async"].map String.toList ∧
      parsedKeys? mixedLiteral.text =
        some (["get", "a-b", "size", "async"].map String.toList) := by
  obtain ⟨told, parsed⟩ := splitKeys_text mixedLiteral (by decide +kernel)
  have keys : mixedLiteral.keys = ["get", "a-b", "size", "async"].map String.toList := by decide
  rw [parsed (by decide +kernel), told, keys]
  exact ⟨by decide, rfl, rfl⟩

/-- A spread of a regular expression with a comma in it, and a value that does not parse. -/
def cutSpread : ObjectLiteral where
  properties :=
    [⟨.space, .spread .empty { text := "/a,b/".toList }, .empty⟩,
      ⟨.space, .pair (.identifier { text := "x".toList }) .empty .space { text := "@@".toList },
        .space⟩]
  ending := none

/-- The spread is cut at the comma of its regular expression, and what stands behind is a key. -/
theorem splitKeys_cutSpread :
    cutSpread.text = "\x7b .../a,b/, x: @@ \x7d".toList ∧ cutSpread.keys = ["x".toList] ∧
      parsedKeys? cutSpread.text = none ∧
      splitKeys cutSpread.text = ["b".toList, "x".toList] := by
  decide +kernel

end Concord.Access
